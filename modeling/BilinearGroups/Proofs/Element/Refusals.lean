import BilinearGroups.Proofs.Backend.ModuleLaws
import BilinearGroups.Proofs.Element.Result

/-!
# Why arithmetic is refused

An operation on elements is refused for the first of several reasons that applies: an operand
belongs to another context, or to another group, or has no inverse where one is needed. For each
operation the reasons are listed in order, operand by operand; the operation succeeds exactly if
none applies, and otherwise it fails for the first.

Two more failures are written into the operations on values: for two values of different groups, and
for a scalar without an inverse. Neither is ever met. The operands have one group once they are
compared with the receiver, and every scalar but zero has an inverse, as the group order is a prime.
-/

namespace BilinearGroups

open ExponentModel (elementOf)

variable {B : Backend} {M : B.Membership} {α β : Type}

/-! ## First reasons -/

/-- Conditions with the reasons for a refusal, in the order in which they are looked at. -/
abbrev Refusals := List (Bool × Error)

/-- The reason with the first condition that applies. -/
def Refusals.first? (rs : Refusals) : Option Error := (rs.find? Prod.fst).map Prod.snd

/-- Why a computation fails, if it does. -/
def reason? : Except Error α → Option Error
  | .ok _ => none
  | .error reason => some reason

theorem Refusals.first?_cons (applies : Bool) (reason : Error) (rs : Refusals) :
    first? ((applies, reason) :: rs) = if applies then some reason else rs.first? := by
  cases applies <;> rfl

theorem Refusals.first?_append (rs rs' : Refusals) :
    first? (rs ++ rs') = rs.first?.or rs'.first? := by
  rw [first?, List.find?_append, Option.map_or]
  rfl

/-- The reasons of a computation come before those of the one that uses its result. -/
theorem reason?_bind {x : Except Error α} {f : α → Except Error β} {rs rs' : Refusals}
    (hx : reason? x = rs.first?) (hf : ∀ a, x = .ok a → reason? (f a) = rs'.first?) :
    reason? (x >>= f) = (rs ++ rs').first? := by
  rw [Refusals.first?_append, ← hx]
  cases x with
  | ok a => exact hf a rfl
  | error reason => rfl

/-- What is done with a result has no reasons of its own. -/
theorem reason?_map (x : Except Error α) (f : α → β) :
    reason? (do return f (← x)) = reason? x := by
  cases x <;> rfl

/-! ## Values -/

namespace Value

variable {v w : Value B} (hF : B.scalars.IsResidueField)

include hF

theorem exists_combineScalars {op : BinaryOp} {s t : B.Scalar}
    (hdiv : ¬(op = .div ∧ t = B.scalars.zero)) : ∃ u, combineScalars op s t = .ok u := by
  cases op with
  | add | sub | mul => exact ⟨_, rfl⟩
  | div =>
    obtain ⟨u, hu⟩ := Option.ne_none_iff_exists'.mp
      (hF.inv?_eq_none_iff.not.mpr fun ht ↦ hdiv ⟨rfl, ht⟩)
    exact ⟨_, combineScalars_div hu⟩

/-- Values of one group are combined, unless one is divided by the neutral element. -/
theorem exists_combine {op : BinaryOp} (hgroup : v.group = w.group)
    (hdiv : ¬(op = .div ∧ w.isIdentity = true)) : ∃ u, v.combine op w = .ok u := by
  obtain ⟨q, hq⟩ := exists_of (v := w) rfl
  obtain ⟨p, rfl⟩ := exists_of hgroup
  -- The group becomes a variable, so that it can be compared with the scalars.
  generalize w.group = g at p q hq
  subst hq
  by_cases hg : g = .zr
  · subst hg
    have hdivisor : ¬(op = .div ∧ q = B.scalars.zero) := fun h ↦
      hdiv ⟨h.1, isIdentity_of.mpr h.2⟩
    obtain ⟨u, hu⟩ := exists_combineScalars hF (s := p) hdivisor
    exact ⟨.zr u, (combine_zr hdivisor).trans (congrArg (Except.map zr) hu)⟩
  · exact ⟨_, combine_of hg fun h ↦ hdiv ⟨h.1, isIdentity_of.mpr h.2⟩⟩

/-- Every value but the neutral element has an inverse. -/
theorem exists_inverse (h : ¬v.isIdentity = true) : ∃ u, v.inverse = .ok u := by
  obtain ⟨p, hp⟩ := exists_of (v := v) rfl
  generalize v.group = g at p hp
  subst hp
  rw [isIdentity_of] at h
  by_cases hg : g = .zr
  · subst hg
    obtain ⟨t, ht⟩ := Option.ne_none_iff_exists'.mp (hF.inv?_eq_none_iff.not.mpr h)
    exact ⟨_, inverse_zr h ht⟩
  · exact ⟨_, inverse_of hg h⟩

end Value

/-! ## Operands -/

namespace Element

variable {e a b z : Element B}

/-- The reasons to refuse an operand for a receiver. -/
def operandRefusals (e a : Element B) : Refusals :=
  [(!e.context.sameAs a.context, .wrongContext), (e.group ≠ a.group, .wrongGroup e.group a.group)]

/-- The reasons to refuse an operand as a scalar for a receiver. -/
def scalarRefusals (e z : Element B) : Refusals :=
  [(!e.context.sameAs z.context, .wrongContext), (z.group ≠ .zr, .wrongGroup .zr z.group)]

/-- The reason to refuse an element that has to be inverted. -/
def inverseRefusals (a : Element B) : Refusals :=
  [(a.value = Value.identity a.group, .notInvertible)]

/-- The reason to refuse the second operand of an operation by its value. -/
def divisorRefusals (op : BinaryOp) (b : Element B) : Refusals :=
  if op = .div then inverseRefusals b else []

theorem reason?_checkCompatible (e a : Element B) :
    reason? (e.checkCompatible a) = (operandRefusals e a).first? := by
  unfold checkCompatible operandRefusals
  rw [Refusals.first?_cons, Refusals.first?_cons]
  cases e.context.sameAs a.context with
  | false => rfl
  | true =>
    simp only [Bool.not_true, Bool.false_eq_true, if_false, decide_eq_true_iff]
    split_ifs <;> rfl

theorem reason?_scalarOperand (e z : Element B) :
    reason? (e.scalarOperand z) = (scalarRefusals e z).first? := by
  unfold scalarOperand scalarRefusals group
  cases e.context.sameAs z.context with
  | false => rfl
  | true => cases z.value <;> rfl

theorem inverseRefusals_eq (a : Element B) :
    inverseRefusals a = [(a.value.isIdentity, .notInvertible)] := by
  have hidentity : decide (a.value = Value.identity a.group) = a.value.isIdentity :=
    Bool.eq_iff_iff.mpr (decide_eq_true_iff.trans a.value.isIdentity_iff.symm)
  rw [inverseRefusals, hidentity]

section Laws

variable (hF : B.scalars.IsResidueField)

include hF

theorem reason?_combineValues {op : BinaryOp} (hgroup : a.group = b.group) :
    reason? (a.value.combine op b.value) = (divisorRefusals op b).first? := by
  rw [divisorRefusals, inverseRefusals_eq]
  by_cases hdiv : op = .div ∧ b.value.isIdentity = true
  · unfold Value.combine
    rw [if_pos hdiv, if_pos hdiv.1, hdiv.2]
    rfl
  · obtain ⟨v, hv⟩ := Value.exists_combine hF hgroup hdiv
    rw [hv]
    split_ifs with hop
    · rw [Bool.eq_false_of_not_eq_true fun h ↦ hdiv ⟨hop, h⟩]
      rfl
    · rfl

theorem reason?_inverse (a : Element B) :
    reason? a.value.inverse = (inverseRefusals a).first? := by
  rw [inverseRefusals_eq]
  by_cases hidentity : a.value.isIdentity = true
  · unfold Value.inverse
    rw [if_pos hidentity, hidentity]
    rfl
  · obtain ⟨v, hv⟩ := Value.exists_inverse hF hidentity
    rw [hv, Bool.eq_false_of_not_eq_true hidentity]
    rfl

end Laws

/-! ## Operations -/

/-- The operation fails for the first reason that applies, and succeeds if none does. -/
def Update.RefusedFor (u : Update B Unit) (e : Element B) (rs : Refusals) : Prop :=
  reason? (u.result e) = rs.first?

/-- An operand that is looked at first contributes its reasons first. -/
theorem reason?_operand {f : Unit → Except Error α} {rs : Refusals}
    (hf : e.group = a.group → reason? (f ()) = rs.first?) :
    reason? (e.checkCompatible a >>= f) = (operandRefusals e a ++ rs).first? :=
  reason?_bind (reason?_checkCompatible e a) fun _ hcheck ↦
    hf (group_eq_of_checkCompatible hcheck)

theorem mulInteger_refusedFor (n : Int64) :
    (mulInteger a n).RefusedFor e (operandRefusals e a) := by
  rw [Update.RefusedFor, mulInteger_result, ← reason?_checkCompatible]
  exact reason?_map ..

theorem neg_refusedFor : (neg a).RefusedFor e (operandRefusals e a) := by
  rw [Update.RefusedFor, neg_result, ← reason?_checkCompatible]
  exact reason?_map ..

theorem mulScalar_refusedFor :
    (mulScalar a z).RefusedFor e (operandRefusals e a ++ scalarRefusals e z) := by
  rw [Update.RefusedFor, mulScalar_result]
  exact reason?_operand fun _ ↦ (reason?_map ..).trans (reason?_scalarOperand e z)

theorem powScalar_refusedFor :
    (powScalar a z).RefusedFor e (operandRefusals e a ++ scalarRefusals e z) := by
  rw [Update.RefusedFor, powScalar_result]
  exact reason?_operand fun _ ↦ (reason?_map ..).trans (reason?_scalarOperand e z)

theorem powScalarWith_refusedFor : (powScalarWith z).RefusedFor e (scalarRefusals e z) := by
  rw [Update.RefusedFor, powScalarWith_result]
  exact (reason?_map ..).trans (reason?_scalarOperand e z)

section Laws

variable (hF : B.scalars.IsResidueField)

include hF

theorem combine_refusedFor (op : BinaryOp) : (combine op a b).RefusedFor e
    (operandRefusals e a ++ (operandRefusals e b ++ divisorRefusals op b)) := by
  rw [Update.RefusedFor, combine_result]
  refine reason?_operand fun ha ↦ reason?_operand fun hb ↦ ?_
  exact (reason?_map ..).trans (reason?_combineValues hF (ha.symm.trans hb))

/-- An operand that is combined with itself is looked at twice to no effect. -/
theorem combine_self_refusedFor {op : BinaryOp} (hop : op ≠ .div) :
    (combine op a a).RefusedFor e (operandRefusals e a) := by
  have hrefused := combine_refusedFor hF (e := e) (a := a) (b := a) op
  rw [Update.RefusedFor, divisorRefusals, if_neg hop, List.append_nil, Refusals.first?_append,
    Option.or_self] at hrefused
  exact hrefused

theorem invert_refusedFor :
    (invert a).RefusedFor e (operandRefusals e a ++ inverseRefusals a) := by
  rw [Update.RefusedFor, invert_result]
  exact reason?_operand fun _ ↦ (reason?_map ..).trans (reason?_inverse hF a)

theorem combineWith_refusedFor (op : BinaryOp) :
    (combineWith op b).RefusedFor e (operandRefusals e b ++ divisorRefusals op b) := by
  rw [Update.RefusedFor, combineWith_result]
  exact reason?_operand fun hb ↦ (reason?_map ..).trans (reason?_combineValues hF hb)

theorem inverted_refusedFor : inverted.RefusedFor e (inverseRefusals e) := by
  rw [Update.RefusedFor, inverted_result]
  exact (reason?_map ..).trans (reason?_inverse hF e)

end Laws

/-- Every operation is refused for the first of its reasons that applies and for no other one. The
operands come in order, each with its context before its group; a scalar has its context looked at
before its group as well; and a value that has to be inverted comes last, which is refused exactly
if it is zero or neutral. So the refusals of sums, differences, products, multiples and negatives do
not depend on values. What lies behind these reasons never fails: zero is the only scalar without an
inverse, operands that are not refused have one group, and values of one group are combined and
inverted as long as nothing neutral is to be inverted. -/
theorem arithmetic_refusals {M : B.Membership} (hM : M.Supported) :
    (∀ e : Element B,
      (∀ op a b, (combine op a b).RefusedFor e
        (operandRefusals e a ++ (operandRefusals e b ++ divisorRefusals op b))) ∧
      (∀ a, (square a).RefusedFor e (operandRefusals e a) ∧
        (double a).RefusedFor e (operandRefusals e a) ∧
        (∀ n, (mulInteger a n).RefusedFor e (operandRefusals e a)) ∧
        (neg a).RefusedFor e (operandRefusals e a) ∧
        (invert a).RefusedFor e (operandRefusals e a ++ inverseRefusals a)) ∧
      (∀ a z, (mulScalar a z).RefusedFor e (operandRefusals e a ++ scalarRefusals e z) ∧
        (powScalar a z).RefusedFor e (operandRefusals e a ++ scalarRefusals e z)) ∧
      (∀ op b, (combineWith op b).RefusedFor e (operandRefusals e b ++ divisorRefusals op b)) ∧
      (∀ z, (powScalarWith z).RefusedFor e (scalarRefusals e z)) ∧
      inverted.RefusedFor e (inverseRefusals e)) ∧
    (∀ s : B.Scalar, (B.scalars.inv? s = none ↔ s = B.scalars.zero) ∧
      ∀ t, B.scalars.inv? s = some t → B.scalars.mul s t = B.scalars.one) ∧
    (∀ e a : Element B, e.checkCompatible a = .ok () → e.value.group = a.value.group) ∧
    (∀ op (v w : Value B), v.group = w.group → (op = .div → w ≠ .identity w.group) →
      ∃ u, v.combine op w = .ok u) ∧
    ∀ v : Value B, v ≠ .identity v.group → ∃ u, v.inverse = .ok u := by
  have hF := hM.moduleLaws.scalars
  refine ⟨fun e ↦ ⟨fun op a b ↦ combine_refusedFor hF op, fun a ↦ ⟨?_, ?_, ?_, neg_refusedFor, ?_⟩,
    fun a z ↦ ⟨mulScalar_refusedFor, powScalar_refusedFor⟩,
    fun op b ↦ combineWith_refusedFor hF op, fun z ↦ powScalarWith_refusedFor,
    inverted_refusedFor hF⟩, fun s ↦ ⟨hF.inv?_eq_none_iff, fun t ↦ hF.mul_inv?⟩,
    fun e a ↦ group_eq_of_checkCompatible, ?_, ?_⟩
  · exact combine_self_refusedFor hF nofun
  · exact combine_self_refusedFor hF nofun
  · exact mulInteger_refusedFor
  · exact invert_refusedFor hF
  · intro op v w hgroup hdiv
    exact Value.exists_combine hF hgroup fun h ↦ hdiv h.1 (w.isIdentity_iff.mp h.2)
  · intro v hv
    exact Value.exists_inverse hF (mt v.isIdentity_iff.mp hv)

/-- A scalar of another context than the standard one. -/
def foreignScalar : Element exponentModel :=
  ⟨{ Context.standard exponentModel with creation := 1 }, (elementOf .zr 0).value⟩

/-- The faults of a division, each reported once those before it are mended. -/
theorem arithmetic_refusals_order : exponentMembership.Supported ∧
    reason? ((combine .div foreignScalar (elementOf .g2 0)).result (elementOf .g1 1)) =
      some .wrongContext ∧
    reason? ((combine .div (elementOf .g2 5) foreignScalar).result (elementOf .g1 1)) =
      some (.wrongGroup .g1 .g2) ∧
    reason? ((combine .div (elementOf .g1 5) foreignScalar).result (elementOf .g1 1)) =
      some .wrongContext ∧
    reason? ((combine .div (elementOf .g1 5) (elementOf .g1 0)).result (elementOf .g1 1)) =
      some .notInvertible ∧
    reason? ((combine .sub (elementOf .g1 5) (elementOf .g1 0)).result (elementOf .g1 1)) =
      none := by
  have hrefused := ((arithmetic_refusals .exponent).1 (elementOf .g1 1)).1
  exact ⟨.exponent, (hrefused _ _ _).trans rfl, (hrefused _ _ _).trans rfl,
    (hrefused _ _ _).trans rfl, (hrefused _ _ _).trans rfl, (hrefused _ _ _).trans rfl⟩

end Element

end BilinearGroups
