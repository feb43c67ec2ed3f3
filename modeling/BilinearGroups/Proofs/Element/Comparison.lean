import Mathlib.Logic.Basic
import Mathlib.Tactic.SplitIfs
import BilinearGroups.Element

/-!
# Comparing elements

Contexts are compared by their creation, and elements by context and value. So equality of elements
is an equivalence relation, whatever their groups and contexts, and the comparison that refuses to
compare across groups and contexts gives the same answer wherever it gives one. Between elements of
different contexts there is neither equality nor order, and outside the scalars there is no order
but equality.
-/

namespace BilinearGroups

variable {B : Backend}

/-! ## Contexts -/

namespace Context

variable {c d e : Context B}

theorem sameAs_iff : c.sameAs d = true ↔ c.creation = d.creation := beq_iff_eq

theorem sameAs_self (c : Context B) : c.sameAs c = true := sameAs_iff.mpr rfl

theorem sameAs_symm (h : c.sameAs d = true) : d.sameAs c = true :=
  sameAs_iff.mpr (sameAs_iff.mp h).symm

theorem sameAs_trans (h : c.sameAs d = true) (h' : d.sameAs e = true) : c.sameAs e = true :=
  sameAs_iff.mpr ((sameAs_iff.mp h).trans (sameAs_iff.mp h'))

theorem sameAs_of_common (h : c.sameAs d = true) (h' : c.sameAs e = true) : d.sameAs e = true :=
  sameAs_trans (sameAs_symm h) h'

end Context

namespace Element

variable {e a b : Element B}

/-! ## Equality -/

theorem equal_iff : a.equal b = true ↔ a.context.sameAs b.context = true ∧ a.value = b.value := by
  rw [equal, Bool.and_eq_true, decide_eq_true_iff]

theorem equal_iff_value (h : a.context.sameAs b.context = true) :
    a.equal b = true ↔ a.value = b.value := by
  rw [equal_iff, and_iff_right h]

theorem equal_equivalence : Equivalence fun a b : Element B ↦ a.equal b = true where
  refl a := equal_iff.mpr ⟨a.context.sameAs_self, rfl⟩
  symm h := by
    obtain ⟨hcontext, hvalue⟩ := equal_iff.mp h
    exact equal_iff.mpr ⟨Context.sameAs_symm hcontext, hvalue.symm⟩
  trans h h' := by
    obtain ⟨hcontext, hvalue⟩ := equal_iff.mp h
    obtain ⟨hcontext', hvalue'⟩ := equal_iff.mp h'
    exact equal_iff.mpr ⟨Context.sameAs_trans hcontext hcontext', hvalue.trans hvalue'⟩

theorem group_eq_of_equal (h : a.equal b = true) : a.group = b.group :=
  congrArg Value.group (equal_iff.mp h).2

/-- Where elements may be compared, the answer is whether they are equal. -/
theorem compareEqual_eq (a b : Element B) : a.compareEqual b =
    if a.context.sameAs b.context = false then .error .wrongContext
    else if a.group ≠ b.group then .error (.wrongGroup a.group b.group)
    else .ok (a.equal b) := by
  unfold compareEqual checkCompatible equal
  cases a.context.sameAs b.context with
  | false => rfl
  | true =>
    simp only [Bool.not_true, Bool.false_eq_true, Bool.true_eq_false, if_false, Bool.true_and]
    split_ifs <;> rfl

theorem compareEqual_eq_ok_iff {v : Bool} : a.compareEqual b = .ok v ↔
    a.context.sameAs b.context = true ∧ a.group = b.group ∧ v = a.equal b := by
  rw [compareEqual_eq]
  split_ifs with hcontext hgroup
  · exact iff_of_false nofun fun h ↦ absurd (hcontext.symm.trans h.1) (by decide)
  · exact iff_of_false nofun fun h ↦ hgroup h.2.1
  · rw [Except.ok.injEq, eq_comm, and_iff_right (eq_true_of_ne_false hcontext),
      and_iff_right (not_not.mp hgroup)]

/-! ## Order -/

/-- Outside the scalars there is no order but equality. -/
theorem partialCompare_of_ne (hg : e.group ≠ .zr ∨ a.group ≠ .zr) : e.partialCompare a =
    if !e.context.sameAs a.context then none
    else if e.value = a.value then some .eq else none := by
  obtain ⟨c, v⟩ := e
  obtain ⟨d, w⟩ := a
  cases v with
  | g1 | g2 | gt => rfl
  | zr s =>
    cases w with
    | g1 | g2 | gt => rfl
    | zr t =>
      rcases hg with hg | hg <;> exact absurd rfl hg

/-- Elements of different contexts cannot be compared, are not equal and in no order. -/
theorem comparisons_of_foreign (h : e.context.sameAs a.context = false) :
    e.compareEqual a = .error .wrongContext ∧ e.equal a = false ∧ e.partialCompare a = none ∧
      e.less a = false ∧ e.greaterOrEqual a = false := by
  have hpartial : e.partialCompare a = none := by
    rw [partialCompare, h]
    rfl
  refine ⟨?_, ?_, hpartial, ?_, ?_⟩
  · rw [compareEqual_eq, if_pos h]
  · rw [equal, h, Bool.false_and]
  · rw [less, hpartial]
    rfl
  · rw [greaterOrEqual, hpartial]
    rfl

end Element

end BilinearGroups
