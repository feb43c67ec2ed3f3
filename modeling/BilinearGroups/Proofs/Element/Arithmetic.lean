import BilinearGroups.Proofs.Element.Exponent
import BilinearGroups.Proofs.Element.Result

/-!
# Arithmetic on elements with exponents

Among elements of one context, the operations that nothing can refuse are computed on exponents. An
operation puts its result into a receiver, and all that the receiver contributes is its context; so
a result is determined by the receiver and the exponent.
-/

namespace BilinearGroups.Element

open Bls12

variable {B : Backend} {M : B.Membership} {c : Context B} {g : Group} {e a b z : Element B}
  {x y k : Fr}

/-- The element belongs to a context and to a group, and has an exponent there. -/
structure HasExponent (e : Element B) (c : Context B) (g : Group) (x : Fr) : Prop where
  context : c.sameAs e.context = true
  value : e.value.HasExponent g x

namespace HasExponent

theorem group_eq (h : e.HasExponent c g x) : e.group = g := h.value.group_eq

theorem sameAs (he : e.HasExponent c g x) {h : Group} (ha : a.HasExponent c h y) :
    e.context.sameAs a.context = true := by
  have hcontext := he.context
  have hcontext' := ha.context
  simp only [Context.sameAs, beq_iff_eq] at hcontext hcontext' ⊢
  exact hcontext.symm.trans hcontext'

theorem checkCompatible (he : e.HasExponent c g x) (ha : a.HasExponent c g y) :
    e.checkCompatible a = .ok () := by
  rw [Element.checkCompatible, he.sameAs ha, if_neg (by decide),
    if_neg (not_not.mpr (he.group_eq.trans ha.group_eq.symm))]

theorem withValue (he : e.HasExponent c g x) {v : Value B} {h : Group} (hv : v.HasExponent h y) :
    (e.withValue v).HasExponent c h y := ⟨he.context, hv⟩

theorem scalarOperand (he : e.HasExponent c g x) (hz : z.HasExponent c .zr k) :
    ∃ s, e.scalarOperand z = .ok s ∧ B.scalars.residue s = k := by
  obtain ⟨d, v⟩ := z
  have hcontext : e.context.sameAs d = true := he.sameAs hz
  cases hz.value with
  | @zr s _ hs =>
    refine ⟨s, ?_, hs⟩
    rw [Element.scalarOperand, hcontext]
    rfl

section Laws

variable (hB : B.GroupLaws M)

include hB

theorem exists_of_holds (hcontext : c.sameAs e.context = true) (h : M.Holds e.value) :
    ∃ x, e.HasExponent c e.group x := by
  obtain ⟨x, hx⟩ := Value.HasExponent.exists_of_holds hB h
  exact ⟨x, hcontext, hx⟩

theorem fresh (g : Group) : (Element.fresh c g).HasExponent c g 0 :=
  ⟨beq_self_eq_true _, .identity hB g⟩

theorem freshLike (he : e.HasExponent c g x) : e.freshLike.HasExponent c g 0 := by
  refine ⟨he.context, ?_⟩
  rw [← he.group_eq]
  exact .identity hB e.group

theorem value_eq_iff (he : e.HasExponent c g x) (ha : a.HasExponent c g y) :
    e.value = a.value ↔ x = y := he.value.eq_iff hB ha.value

theorem equal_iff (he : e.HasExponent c g x) (ha : a.HasExponent c g y) :
    e.equal a = true ↔ x = y := by
  rw [Element.equal_iff_value (he.sameAs ha), value_eq_iff hB he ha]

theorem isZero_iff (he : e.HasExponent c g x) : e.isZero = true ↔ x = 0 :=
  he.value.isIdentity_iff hB

theorem isOne_iff (he : e.HasExponent c g x) : e.isOne = true ↔ x = Exponent.one g :=
  he.value.isOne_iff hB

/-! ## Operations -/

/-- A result goes into any receiver of the group. -/
theorem combine (op : BinaryOp) {w : Fr} (hop : Exponent.combine op g x y = .ok w)
    (ha : a.HasExponent c g x) (hb : b.HasExponent c g y) {u : Fr} (he : e.HasExponent c g u) :
    ∃ v, (Element.combine op a b).result e = .ok (e.withValue v) ∧ v.HasExponent g w := by
  have hcombine := Value.HasExponent.combine hB ha.value hb.value op
  rw [hop] at hcombine
  obtain ⟨v, hv, hw⟩ := hcombine.exists_ok
  refine ⟨v, ?_, hw⟩
  rw [combine_result, he.checkCompatible ha, he.checkCompatible hb, hv]
  rfl

theorem combineWith (op : BinaryOp) {w : Fr} (hop : Exponent.combine op g x y = .ok w)
    (he : e.HasExponent c g x) (hb : b.HasExponent c g y) :
    ∃ v, (Element.combineWith op b).result e = .ok (e.withValue v) ∧ v.HasExponent g w := by
  have hcombine := Value.HasExponent.combine hB he.value hb.value op
  rw [hop] at hcombine
  obtain ⟨v, hv, hw⟩ := hcombine.exists_ok
  refine ⟨v, ?_, hw⟩
  rw [combineWith_result, he.checkCompatible hb, hv]
  rfl

theorem neg (ha : a.HasExponent c g x) {u : Fr} (he : e.HasExponent c g u) :
    ∃ v, (Element.neg a).result e = .ok (e.withValue v) ∧ v.HasExponent g (-x) := by
  refine ⟨_, ?_, ha.value.negative hB⟩
  rw [neg_result, he.checkCompatible ha]
  rfl

theorem mulScalar (ha : a.HasExponent c g x) (hz : z.HasExponent c .zr k) {u : Fr}
    (he : e.HasExponent c g u) :
    ∃ v, (Element.mulScalar a z).result e = .ok (e.withValue v) ∧ v.HasExponent g (k * x) := by
  obtain ⟨s, hs, rfl⟩ := he.scalarOperand hz
  refine ⟨_, ?_, ha.value.multiple hB s⟩
  rw [mulScalar_result, he.checkCompatible ha, hs]
  rfl

theorem powScalar (ha : a.HasExponent c g x) (hz : z.HasExponent c .zr k) {u : Fr}
    (he : e.HasExponent c g u) : ∃ v, (Element.powScalar a z).result e = .ok (e.withValue v) ∧
      v.HasExponent g (Exponent.power k g x) := by
  obtain ⟨s, hs, rfl⟩ := he.scalarOperand hz
  refine ⟨_, ?_, ha.value.power hB s⟩
  rw [powScalar_result, he.checkCompatible ha, hs]
  rfl

end Laws

end HasExponent

end BilinearGroups.Element
