import Mathlib.Algebra.Field.TransferInstance
import Mathlib.Algebra.Module.TransferInstance
import BilinearGroups.Proofs.Backend.ModuleLaws
import BilinearGroups.Proofs.Element.Result

/-!
# The members of the groups of a context

The elements of one context and one group whose values are members are a type of their own here. An
operation puts its result into a receiver, which contributes nothing to it but its context and its
group: among these elements an operation *gives* an element, the same one in every receiver
(`Context.Gives`).
-/

namespace BilinearGroups

open Bls12

variable {B : Backend} {M : B.Membership} {c : Context B} {g : Group}

/-- The element belongs to a context and to a group. -/
structure Element.InGroup (e : Element B) (c : Context B) (g : Group) : Prop where
  context : e.context = c
  group : e.group = g

namespace Context

/-- The elements of a group of a context whose values are members. -/
abbrev Members (c : Context B) (M : B.Membership) (g : Group) : Type :=
  {e : Element B // e.InGroup c g ∧ M.Holds e.value}

/-- The operation succeeds and gives the element, whatever element of the group receives it. -/
def Gives (c : Context B) (g : Group) (u : Element.Update B Unit) (v : Element B) : Prop :=
  ∀ e : Element B, e.InGroup c g → u.result e = .ok v

end Context

/-- An operation gives one element only. -/
theorem Context.Gives.unique {u : Element.Update B Unit} {v w : Element B} (hv : c.Gives g u v)
    (hw : c.Gives g u w) : v = w := by
  have hfresh : (Element.fresh c g).InGroup c g := ⟨rfl, Element.group_fresh c g⟩
  exact Except.ok.inj ((hv _ hfresh).symm.trans (hw _ hfresh))

/-! ## What operations give -/

namespace Element.InGroup

variable {e a b z : Element B} {v : Value B}

theorem withValue_eq (he : e.InGroup c g) (v : Value B) : e.withValue v = ⟨c, v⟩ := by
  obtain rfl := he.context
  rfl

theorem checkCompatible_eq_ok (he : e.InGroup c g) (ha : a.InGroup c g) :
    e.checkCompatible a = .ok () := by
  have hcontext : e.context.sameAs a.context = true := by
    rw [he.context, ha.context, Context.sameAs_self]
  rw [checkCompatible, hcontext, if_neg (by decide),
    if_neg (not_not.mpr (he.group.trans ha.group.symm))]

theorem scalarOperand_eq_ok {k : B.Scalar} (he : e.InGroup c g) :
    e.scalarOperand ⟨c, .zr k⟩ = .ok k := by
  rw [scalarOperand, he.context, Context.sameAs_self]
  rfl

theorem gives_combine {op : BinaryOp} (ha : a.InGroup c g) (hb : b.InGroup c g)
    (h : a.value.combine op b.value = .ok v) : c.Gives g (combine op a b) ⟨c, v⟩ := by
  intro e he
  rw [combine_result, he.checkCompatible_eq_ok ha, he.checkCompatible_eq_ok hb, h,
    ← he.withValue_eq]
  rfl

theorem gives_neg (ha : a.InGroup c g) : c.Gives g (neg a) ⟨c, a.value.negative⟩ := by
  intro e he
  rw [neg_result, he.checkCompatible_eq_ok ha, ← he.withValue_eq]
  rfl

theorem gives_invert (ha : a.InGroup c g) (h : a.value.inverse = .ok v) :
    c.Gives g (invert a) ⟨c, v⟩ := by
  intro e he
  rw [invert_result, he.checkCompatible_eq_ok ha, h, ← he.withValue_eq]
  rfl

theorem gives_mulScalar (ha : a.InGroup c g) (k : B.Scalar) :
    c.Gives g (mulScalar a ⟨c, .zr k⟩) ⟨c, a.value.multiple k⟩ := by
  intro e he
  rw [mulScalar_result, he.checkCompatible_eq_ok ha, he.scalarOperand_eq_ok, ← he.withValue_eq]
  rfl

theorem gives_powScalar (ha : a.InGroup c g) (k : B.Scalar) :
    c.Gives g (powScalar a ⟨c, .zr k⟩) ⟨c, a.value.power k⟩ := by
  intro e he
  rw [powScalar_result, he.checkCompatible_eq_ok ha, he.scalarOperand_eq_ok, ← he.withValue_eq]
  rfl

end Element.InGroup

theorem Context.gives_setZero : c.Gives g Element.setZero ⟨c, .identity g⟩ := by
  intro e he
  rw [Element.setZero_result, he.group, he.withValue_eq]

theorem Context.gives_setOne : c.Gives g Element.setOne ⟨c, .one g⟩ := by
  intro e he
  rw [Element.setOne_result, he.group, he.withValue_eq]

namespace Context.Members

/-! ## Members and their values -/

/-- The member of a context with a value. -/
def ofValue (c : Context B) (p : {p : B.Carrier g // M.On g p}) : c.Members M g :=
  ⟨⟨c, .of g p.1⟩, ⟨rfl, Value.group_of p.1⟩, p.2⟩

theorem bijective_ofValue : Function.Bijective (ofValue (M := M) (g := g) c) := by
  constructor
  · intro p q h
    have hvalue : Value.of g p.1 = Value.of g q.1 := congrArg (fun e ↦ e.1.value) h
    exact Subtype.ext (Value.of_injective hvalue)
  · rintro ⟨⟨c, v⟩, ⟨rfl, rfl⟩, hv⟩
    obtain ⟨p, hp⟩ := Value.exists_of (v := v) rfl
    have hmember : M.On v.group p := by
      rw [Backend.Membership.On, ← hp]
      exact hv
    refine ⟨⟨p, hmember⟩, Subtype.ext ?_⟩
    show (⟨c, Value.of v.group p⟩ : Element B) = ⟨c, v⟩
    rw [← hp]

/-- The members of a group of a context are the members of the group. -/
noncomputable def valueEquiv (c : Context B) (M : B.Membership) (g : Group) :
    c.Members M g ≃ {p : B.Carrier g // M.On g p} :=
  (Equiv.ofBijective _ bijective_ofValue).symm

theorem valueEquiv_ofValue (p : {p : B.Carrier g // M.On g p}) :
    valueEquiv c M g (ofValue c p) = p :=
  Equiv.ofBijective_symm_apply_apply _ bijective_ofValue p

theorem exists_ofValue (a : c.Members M g) : ∃ p, a = ofValue c p :=
  ⟨_, ((valueEquiv c M g).symm_apply_apply a).symm⟩

/-- Among the members of a context, what compares equal is equal. -/
theorem equal_iff (a b : c.Members M g) : a.1.equal b.1 = true ↔ a = b := by
  obtain ⟨p, rfl⟩ := exists_ofValue a
  obtain ⟨q, rfl⟩ := exists_ofValue b
  rw [Element.equal_iff_value c.sameAs_self, bijective_ofValue.1.eq_iff, Subtype.ext_iff]
  exact Value.of_injective.eq_iff

end Context.Members

/-- The element of the standard context with an exponent, as a member. -/
def ExponentModel.memberOf (g : Group) (x : Fr) :
    (Context.standard exponentModel).Members exponentMembership g :=
  ⟨elementOf g x, ⟨rfl, by cases g <;> rfl⟩, exponentMembership_holds _⟩

end BilinearGroups
