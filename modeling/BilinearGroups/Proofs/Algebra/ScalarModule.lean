import Mathlib.Algebra.Module.ZMod
import BilinearGroups.Proofs.Algebra.CyclicGroup

/-!
# Groups on which the scalars act

In a commutative group whose elements the group order `r` kills, only the residue of a number of
copies matters, so the residues modulo `r` act on the group. `IsModule` says that the members of a
type are such a group under given operations, and `module` is the action.

Unlike `IsCyclic` it does not ask for a generator. To see that the points of a curve are a module
they need not be counted: it is enough that they are taken from a commutative group
(`IsModule.of_map`).
-/

namespace BilinearGroups.GroupOperations

open Bls12

variable {G : Type} {O : GroupOperations G} {member : G → Prop}

/-- The members are a commutative group, and `r` copies of a member combine to the neutral
element. -/
structure IsModule (O : GroupOperations G) (member : G → Prop) : Prop where
  identity : member O.identity
  op {a b : G} : member a → member b → member (O.op a b)
  inv {a : G} : member a → member (O.inv a)
  op_assoc {a b c : G} :
    member a → member b → member c → O.op (O.op a b) c = O.op a (O.op b c)
  op_comm {a b : G} : member a → member b → O.op a b = O.op b a
  identity_op {a : G} : member a → O.op O.identity a = a
  inv_op {a : G} : member a → O.op (O.inv a) a = O.identity
  copies_groupOrder {a : G} : member a → O.copies groupOrder a = O.identity

/-- A map that respects the operations respects copies. -/
theorem copies_map {A : Type} [AddCommGroup A] {f : A → G} (zero : f 0 = O.identity)
    (add : ∀ a b, f (a + b) = O.op (f a) (f b)) (n : ℕ) (a : A) :
    O.copies n (f a) = f (n • a) := by
  induction n with
  | zero => rw [zero_nsmul, zero, copies]
  | succ n ih => rw [copies, ih, ← add, succ_nsmul]

namespace IsModule

/-- The elements of a commutative group that `r` kills are a module wherever they are mapped to. -/
theorem of_map {A : Type} [AddCommGroup A] {f : A → G} (zero : f 0 = O.identity)
    (add : ∀ a b, f (a + b) = O.op (f a) (f b)) (neg : ∀ a, f (-a) = O.inv (f a))
    (hmember : ∀ {p}, member p ↔ ∃ a, f a = p ∧ groupOrder • a = 0) : O.IsModule member where
  identity := hmember.mpr ⟨0, zero, smul_zero _⟩
  op hp hq := by
    obtain ⟨a, rfl, ha⟩ := hmember.mp hp
    obtain ⟨b, rfl, hb⟩ := hmember.mp hq
    exact hmember.mpr ⟨a + b, add a b, by rw [smul_add, ha, hb, add_zero]⟩
  inv hp := by
    obtain ⟨a, rfl, ha⟩ := hmember.mp hp
    exact hmember.mpr ⟨-a, neg a, by rw [smul_neg, ha, neg_zero]⟩
  op_assoc hp hq hs := by
    obtain ⟨a, rfl, -⟩ := hmember.mp hp
    obtain ⟨b, rfl, -⟩ := hmember.mp hq
    obtain ⟨c, rfl, -⟩ := hmember.mp hs
    rw [← add, ← add, ← add, ← add, add_assoc]
  op_comm hp hq := by
    obtain ⟨a, rfl, -⟩ := hmember.mp hp
    obtain ⟨b, rfl, -⟩ := hmember.mp hq
    rw [← add, ← add, add_comm]
  identity_op hp := by
    obtain ⟨a, rfl, -⟩ := hmember.mp hp
    rw [← zero, ← add, zero_add]
  inv_op hp := by
    obtain ⟨a, rfl, -⟩ := hmember.mp hp
    rw [← neg, ← add, neg_add_cancel, zero]
  copies_groupOrder hp := by
    obtain ⟨a, rfl, ha⟩ := hmember.mp hp
    rw [copies_map zero add, ha, zero]

variable (hO : O.IsModule member)

include hO

/-- The members as a group of their own. -/
abbrev group : AddCommGroup {a // member a} :=
  letI : Add {a // member a} := ⟨fun a b ↦ ⟨O.op a b, hO.op a.2 b.2⟩⟩
  letI : Zero {a // member a} := ⟨⟨O.identity, hO.identity⟩⟩
  letI : Neg {a // member a} := ⟨fun a ↦ ⟨O.inv a, hO.inv a.2⟩⟩
  { AddGroup.ofLeftAxioms (G := {a // member a})
      (fun a b c ↦ Subtype.ext (hO.op_assoc a.2 b.2 c.2))
      (fun a ↦ Subtype.ext (hO.identity_op a.2)) (fun a ↦ Subtype.ext (hO.inv_op a.2)) with
    add_comm := fun a b ↦ Subtype.ext (hO.op_comm a.2 b.2) }

theorem copies_eq_nsmul (n : ℕ) (a : {a // member a}) :
    letI := hO.group
    O.copies n a = (n • a : {a // member a}) := by
  let := hO.group
  induction n with
  | zero =>
    rw [zero_nsmul]
    rfl
  | succ n ih =>
    rw [copies, ih, succ_nsmul]
    rfl

/-- The scalars act by copies. -/
abbrev module :
    letI := hO.group
    Module Fr {a // member a} :=
  letI := hO.group
  letI : Module (ZMod groupOrder) {a // member a} := AddCommGroup.zmodModule fun a ↦
    Subtype.ext ((hO.copies_eq_nsmul groupOrder a).symm.trans (hO.copies_groupOrder a.2))
  Module.compHom {a // member a} (Residue.toZModEquiv (m := groupOrder)).toRingHom

/-- A multiple by a scalar consists of as many copies as the scalar says. -/
theorem smul_eq_copies (x : Fr) (a : {a // member a}) :
    letI := hO.group
    letI := hO.module
    (x • a : {a // member a}).1 = O.copies x.val a := by
  let := hO.group
  let := hO.module
  rw [hO.copies_eq_nsmul, ← Nat.cast_smul_eq_nsmul Fr, Residue.natCast_val]

end IsModule

end BilinearGroups.GroupOperations
