import Mathlib.Algebra.Group.MinimalAxioms
import Mathlib.GroupTheory.OrderOfElement
import BilinearGroups.Bls12.Fields
import BilinearGroups.Proofs.Algebra.Residue

/-!
# Cyclic groups inside a type

The operations of a group may be defined on a type that holds more than the group: formulas for
points add any two pairs of coordinates. `IsCyclic` says that the operations make the members of a
type a group, that the members are the multiples of a generator, and what the order of the generator
is.

Every member then has an exponent, which is a scalar: `element x` is the member with exponent `x`,
and the operations on members are sums, negatives and multiples of exponents. This is the only form
in which the group laws are used.
-/

namespace BilinearGroups

open Bls12

/-- The operations of a group with a distinguished element. -/
structure GroupOperations (G : Type) where
  /-- The neutral element. -/
  identity : G
  /-- The distinguished element. -/
  generator : G
  /-- The group operation. -/
  op : G → G → G
  /-- The inverse. -/
  inv : G → G

namespace GroupOperations

variable {G : Type} {O : GroupOperations G} {member : G → Prop}

/-- The combination of `n` copies of an element. -/
def copies (O : GroupOperations G) : (n : ℕ) → G → G
  | 0, _ => O.identity
  | n + 1, a => O.op (O.copies n a) a

/-- The members are a group of the order of the scalars, and every member is a multiple of the
generator. -/
structure IsCyclic (O : GroupOperations G) (member : G → Prop) : Prop where
  identity : member O.identity
  generator : member O.generator
  op {a b : G} : member a → member b → member (O.op a b)
  inv {a : G} : member a → member (O.inv a)
  op_assoc {a b c : G} :
    member a → member b → member c → O.op (O.op a b) c = O.op a (O.op b c)
  identity_op {a : G} : member a → O.op O.identity a = a
  inv_op {a : G} : member a → O.op (O.inv a) a = O.identity
  exists_copies {a : G} : member a → ∃ n, O.copies n O.generator = a
  copies_generator (n : ℕ) : O.copies n O.generator = O.identity ↔ groupOrder ∣ n

/-- The member with an exponent. -/
def element (O : GroupOperations G) (x : Fr) : G := O.copies x.val O.generator

@[simp] theorem element_zero : O.element 0 = O.identity := rfl

namespace IsCyclic

variable (hO : O.IsCyclic member)

include hO

/-- The members as a group of their own. -/
private abbrev group :=
  letI : Mul {a // member a} := ⟨fun a b ↦ ⟨O.op a b, hO.op a.2 b.2⟩⟩
  letI : One {a // member a} := ⟨⟨O.identity, hO.identity⟩⟩
  letI : Inv {a // member a} := ⟨fun a ↦ ⟨O.inv a, hO.inv a.2⟩⟩
  Group.ofLeftAxioms (G := {a // member a})
    (fun a b c ↦ Subtype.ext (hO.op_assoc a.2 b.2 c.2))
    (fun a ↦ Subtype.ext (hO.identity_op a.2)) (fun a ↦ Subtype.ext (hO.inv_op a.2))

private theorem copies_eq_pow (n : ℕ) (a : {a // member a}) :
    letI := hO.group
    O.copies n a = (a ^ n : {a // member a}) := by
  let := hO.group
  induction n with
  | zero =>
    rw [pow_zero]
    rfl
  | succ n ih =>
    rw [copies, ih, pow_succ]
    rfl

theorem copies {a : G} (ha : member a) (n : ℕ) : member (O.copies n a) := by
  let := hO.group
  rw [hO.copies_eq_pow n ⟨a, ha⟩]
  exact Subtype.prop _

/-! ## Exponents -/

theorem member_element (x : Fr) : member (O.element x) := hO.copies hO.generator x.val

/-- Numbers of copies are exponents, and only their residue matters. -/
theorem copies_generator_eq (n : ℕ) : O.copies n O.generator = O.element (n : Fr) := by
  let := hO.group
  let g : {a // member a} := ⟨O.generator, hO.generator⟩
  have hpow : ∀ k, (g ^ k = 1 ↔ groupOrder ∣ k) := by
    intro k
    rw [← hO.copies_generator, hO.copies_eq_pow k g, Subtype.ext_iff]
    rfl
  have horder : orderOf g = groupOrder :=
    Nat.dvd_antisymm (orderOf_dvd_of_pow_eq_one ((hpow _).mpr dvd_rfl))
      ((hpow _).mp (pow_orderOf_eq_one g))
  rw [element, hO.copies_eq_pow n g, hO.copies_eq_pow _ g]
  refine congrArg Subtype.val (pow_eq_pow_iff_modEq.mpr ?_)
  rw [horder]
  exact (Nat.mod_modEq n groupOrder).symm

theorem exists_element {a : G} (ha : member a) : ∃ x : Fr, O.element x = a := by
  obtain ⟨n, rfl⟩ := hO.exists_copies ha
  exact ⟨n, (hO.copies_generator_eq n).symm⟩

theorem element_one : O.element 1 = O.generator := by
  rw [← Nat.cast_one, ← hO.copies_generator_eq]
  exact hO.identity_op hO.generator

theorem op_element (x y : Fr) : O.op (O.element x) (O.element y) = O.element (x + y) := by
  let := hO.group
  let g : {a // member a} := ⟨O.generator, hO.generator⟩
  rw [← Residue.natCast_val_add, ← hO.copies_generator_eq, hO.copies_eq_pow _ g, pow_add]
  show O.op (O.element x) (O.element y) = O.op (g ^ x.val).1 (g ^ y.val).1
  rw [← hO.copies_eq_pow, ← hO.copies_eq_pow]
  rfl

theorem element_eq_identity_iff {x : Fr} : O.element x = O.identity ↔ x = 0 := by
  constructor
  · intro h
    have hdvd : groupOrder ∣ x.val := (hO.copies_generator x.val).mp h
    exact Residue.ext (Nat.eq_zero_of_dvd_of_lt hdvd x.isLt)
  · rintro rfl
    exact element_zero

theorem inv_element (x : Fr) : O.inv (O.element x) = O.element (-x) := by
  let := hO.group
  let a : {a // member a} := ⟨O.element x, hO.member_element x⟩
  let b : {a // member a} := ⟨O.element (-x), hO.member_element (-x)⟩
  have hba : b * a = 1 := Subtype.ext (by
    show O.op (O.element (-x)) (O.element x) = O.identity
    rw [hO.op_element, neg_add_cancel, element_zero])
  exact congrArg Subtype.val (eq_inv_of_mul_eq_one_left hba).symm

theorem element_injective : Function.Injective O.element := by
  intro x y h
  have hdiff : O.element (x - y) = O.identity := by
    rw [sub_eq_add_neg, ← hO.op_element, h, hO.op_element, add_neg_cancel, element_zero]
  exact sub_eq_zero.mp (hO.element_eq_identity_iff.mp hdiff)

theorem copies_element (n : ℕ) (x : Fr) : O.copies n (O.element x) = O.element (n * x) := by
  induction n with
  | zero => rw [Nat.cast_zero, zero_mul, element_zero, GroupOperations.copies]
  | succ n ih =>
    rw [GroupOperations.copies, ih, hO.op_element, Nat.cast_succ, add_mul, one_mul]

/-- A map that respects the operations multiplies exponents by a fixed one. -/
theorem exists_factor {G' : Type} {O' : GroupOperations G'} {member' : G' → Prop}
    (hO' : O'.IsCyclic member') {f : G → G'} (hmember : ∀ {a}, member a → member' (f a))
    (hop : ∀ {a b}, member a → member b → f (O.op a b) = O'.op (f a) (f b)) :
    ∃ u : Fr, ∀ x, f (O.element x) = O'.element (u * x) := by
  obtain ⟨u, hu⟩ := hO'.exists_element (hmember hO.generator)
  -- What the neutral element is sent to is its own double.
  have hidentity : f O.identity = O'.identity := by
    obtain ⟨z, hz⟩ := hO'.exists_element (hmember hO.identity)
    have hdouble : O'.element (z + z) = O'.element z := by
      rw [← hO'.op_element, hz, ← hop hO.identity hO.identity, hO.identity_op hO.identity]
    rw [← hz, hO'.element_eq_identity_iff]
    exact left_eq_add.mp (hO'.element_injective hdouble).symm
  have hcopies : ∀ n : ℕ, f (O.copies n O.generator) = O'.element (u * n) := by
    intro n
    induction n with
    | zero =>
      rw [Nat.cast_zero, mul_zero, element_zero]
      exact hidentity
    | succ n ih =>
      rw [GroupOperations.copies, hop (hO.copies hO.generator n) hO.generator, ih, ← hu,
        hO'.op_element, Nat.cast_succ, mul_add, mul_one]
  refine ⟨u, fun x ↦ (hcopies x.val).trans ?_⟩
  rw [Residue.natCast_val]

end IsCyclic

end GroupOperations

end BilinearGroups
