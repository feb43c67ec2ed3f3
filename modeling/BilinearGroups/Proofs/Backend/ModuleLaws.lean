import BilinearGroups.Proofs.Algebra.ScalarModule
import BilinearGroups.Proofs.Backend.Encodings
import BilinearGroups.Proofs.Backend.Instances

/-!
# The groups of a backend are modules over its scalars

The four groups of a backend are taken together here, as one family of types with the same
operations, so that what holds in each of them is said once. A backend satisfies the module laws if
its scalars are the residues modulo the group order and each other group is a commutative group that
the order kills, on which a scalar acts by as many copies as its integer says.

This is less than the laws of a pairing of cyclic groups, and all three backends satisfy it
outright: nothing has to be assumed of the curves.
-/

namespace BilinearGroups

open Bls12

namespace Backend

variable (B : Backend)

/-! ## The groups as a family -/

/-- The values of a group. -/
def Carrier : Group → Type
  | .g1 => B.G1
  | .g2 => B.G2
  | .gt => B.Target
  | .zr => B.Scalar

/-- The operations of a group, which for the scalars are those of the sum. -/
def operations : (g : Group) → GroupOperations (B.Carrier g)
  | .g1 => B.g1.operations
  | .g2 => B.g2.operations
  | .gt => B.target.operations
  | .zr => ⟨B.scalars.zero, B.scalars.one, B.scalars.add, B.scalars.neg⟩

/-- The difference in a group. -/
def subtract : (g : Group) → B.Carrier g → B.Carrier g → B.Carrier g
  | .g1 => B.g1.sub
  | .g2 => B.g2.sub
  | .gt => fun s t ↦ B.target.combine s (B.target.invert t)
  | .zr => B.scalars.sub

/-- The multiple by a scalar in a group. -/
def scale : (g : Group) → B.Scalar → B.Carrier g → B.Carrier g
  | .g1 => B.g1.scale
  | .g2 => B.g2.scale
  | .gt => B.target.scale
  | .zr => fun k s ↦ B.scalars.mul s k

end Backend

variable {B : Backend} {g : Group}

/-- The value of a group as a value with its group. -/
def Value.of : (g : Group) → B.Carrier g → Value B
  | .g1 => .g1
  | .g2 => .g2
  | .gt => .gt
  | .zr => .zr

/-- The value is an element of a given group. -/
def Backend.Membership.On (M : B.Membership) (g : Group) (p : B.Carrier g) : Prop :=
  M.Holds (Value.of g p)

namespace Value

variable {p q : B.Carrier g}

@[simp] theorem group_of (p : B.Carrier g) : (of g p).group = g := by cases g <;> rfl

theorem of_injective : Function.Injective (of (B := B) g) := by
  intro p q h
  cases g <;> cases h <;> rfl

theorem exists_of {v : Value B} (h : v.group = g) : ∃ p, v = of g p := by
  subst h
  cases v <;> exact ⟨_, rfl⟩

/-! ## Operations on values -/

theorem identity_eq_of (g : Group) : (identity g : Value B) = of g (B.operations g).identity := by
  cases g <;> rfl

theorem one_eq_identity (hg : g ≠ .zr) : (one g : Value B) = identity g := by
  cases g with
  | zr => exact absurd rfl hg
  | g1 | g2 | gt => rfl

theorem negative_of (p : B.Carrier g) : (of g p).negative = of g ((B.operations g).inv p) := by
  cases g <;> rfl

theorem multiple_of (k : B.Scalar) (p : B.Carrier g) :
    (of g p).multiple k = of g (B.scale g k p) := by
  cases g <;> rfl

theorem power_of (hg : g ≠ .zr) (k : B.Scalar) (p : B.Carrier g) :
    (of g p).power k = (of g p).multiple k := by
  cases g with
  | zr => exact absurd rfl hg
  | g1 | g2 | gt => rfl

theorem isIdentity_iff (v : Value B) : v.isIdentity = true ↔ v = identity v.group := by
  cases v with
  | g1 p => exact decide_eq_true_iff.trans (Value.g1.injEq ..).to_iff.symm
  | g2 p => exact decide_eq_true_iff.trans (Value.g2.injEq ..).to_iff.symm
  | gt p => exact decide_eq_true_iff.trans (Value.gt.injEq ..).to_iff.symm
  | zr p => exact decide_eq_true_iff.trans (Value.zr.injEq ..).to_iff.symm

theorem isIdentity_of : (of g p).isIdentity = true ↔ p = (B.operations g).identity := by
  rw [isIdentity_iff, group_of, identity_eq_of, of_injective.eq_iff]

/-- Outside the scalars every operation is a sum or a difference. -/
theorem combine_of {op : BinaryOp} (hg : g ≠ .zr)
    (hdiv : ¬(op = .div ∧ q = (B.operations g).identity)) :
    (of g p).combine op (of g q) =
      .ok (of g (if op.invertsSecond then B.subtract g p q else (B.operations g).op p q)) := by
  unfold combine
  rw [if_neg fun h ↦ hdiv ⟨h.1, isIdentity_of.mp h.2⟩]
  cases g with
  | g1 | g2 => rfl
  | gt => cases op <;> rfl
  | zr => exact absurd rfl hg

theorem inverse_of (hg : g ≠ .zr) (hp : p ≠ (B.operations g).identity) :
    (of g p).inverse = .ok (of g ((B.operations g).inv p)) := by
  unfold inverse
  rw [if_neg (mt isIdentity_of.mp hp)]
  cases g with
  | zr => exact absurd rfl hg
  | g1 | g2 | gt => rfl

/-! ### Scalars -/

variable {s t u : B.Scalar}

theorem combineScalars_div (h : B.scalars.inv? t = some u) :
    combineScalars .div s t = .ok (B.scalars.mul s u) := by
  rw [combineScalars, scalarInverse, h]
  rfl

theorem combine_zr {op : BinaryOp} (hdiv : ¬(op = .div ∧ t = B.scalars.zero)) :
    (zr s).combine op (zr t) = (combineScalars op s t).map zr := by
  unfold combine
  exact if_neg fun h ↦ hdiv ⟨h.1, decide_eq_true_iff.mp h.2⟩

theorem inverse_zr (hs : s ≠ B.scalars.zero) (h : B.scalars.inv? s = some t) :
    (zr s).inverse = .ok (zr t) := by
  have hinverse : scalarInverse s = .ok t := by rw [scalarInverse, h]
  unfold inverse
  exact (if_neg fun hzero ↦ hs (decide_eq_true_iff.mp hzero)).trans
    (congrArg (Except.map zr) hinverse)

end Value

/-! ## Laws -/

section Laws

variable {S P T : Type}

/-- The points are a module, on which a scalar acts by copies. -/
structure SourceGroup.ModuleLaws (G : SourceGroup S P) (F : ScalarField S) (member : P → Prop) :
    Prop where
  isModule : G.operations.IsModule member
  sub {p q : P} : member p → member q → G.sub p q = G.add p (G.neg q)
  scale (k : S) {p : P} : member p → G.scale k p = G.operations.copies (F.value k) p

/-- The elements of the target group are a module, on which a scalar acts by copies. -/
structure TargetGroup.ModuleLaws (G : TargetGroup S T) (F : ScalarField S) (member : T → Prop) :
    Prop where
  isModule : G.operations.IsModule member
  scale (k : S) {t : T} : member t → G.scale k t = G.operations.copies (F.value k) t

end Laws

namespace Backend

/-- The scalars are the residues modulo the group order, and the other groups are modules over
them. -/
structure ModuleLaws (M : B.Membership) : Prop where
  scalars : B.scalars.IsResidueField
  zr (s : B.Scalar) : M.zr s
  g1 : B.g1.ModuleLaws B.scalars M.g1
  g2 : B.g2.ModuleLaws B.scalars M.g2
  target : B.target.ModuleLaws B.scalars M.gt

namespace ModuleLaws

variable {M : B.Membership} {p q : B.Carrier g} (hB : B.ModuleLaws M)

include hB

theorem isModule (hg : g ≠ .zr) : (B.operations g).IsModule (M.On g) := by
  cases g with
  | g1 => exact hB.g1.isModule
  | g2 => exact hB.g2.isModule
  | gt => exact hB.target.isModule
  | zr => exact absurd rfl hg

theorem subtract_eq (hg : g ≠ .zr) (hp : M.On g p) (hq : M.On g q) :
    B.subtract g p q = (B.operations g).op p ((B.operations g).inv q) := by
  cases g with
  | g1 => exact hB.g1.sub hp hq
  | g2 => exact hB.g2.sub hp hq
  | gt => rfl
  | zr => exact absurd rfl hg

theorem scale_eq (hg : g ≠ .zr) (k : B.Scalar) (hp : M.On g p) :
    B.scale g k p = (B.operations g).copies (B.scalars.value k) p := by
  cases g with
  | g1 => exact hB.g1.scale k hp
  | g2 => exact hB.g2.scale k hp
  | gt => exact hB.target.scale k hp
  | zr => exact absurd rfl hg

end ModuleLaws

end Backend

/-! ## The curves -/

namespace Bls12

section SourceGroup

variable {F : Type} [Field F] [DecidableEq F] {group : Group} {C : SourceCurve F}
variable {hash : Bytes → Bytes → Point F} {report : Report} {reader : Bytes → Option (Point F)}
variable {multiple : ℕ → Point F → Point F} {random : Draw (Point F)}

theorem sourceGroup_isModule [Point.SmoothCurve C.b] :
    (sourceGroup group C hash report reader multiple random).operations.IsModule C.Member := by
  refine .of_map (f := (Point.ofGroup : (Point.weierstrass C.b).Point → Point F)) rfl
    Point.ofGroup_add Point.ofGroup_neg ⟨fun h ↦ h.exists_ofGroup, ?_⟩
  rintro ⟨A, rfl, hA⟩
  exact SourceCurve.member_ofGroup_iff.mpr hA

theorem sourceGroup_copies_eq [Point.SmoothCurve C.b] {P : Point F} (h : C.Member P) (n : ℕ) :
    (sourceGroup group C hash report reader multiple random).operations.copies n P =
      P.multiple n := by
  obtain ⟨A, rfl, -⟩ := h.exists_ofGroup
  rw [← Point.ofGroup_nsmul]
  exact GroupOperations.copies_map (f := (Point.ofGroup : (Point.weierstrass C.b).Point → Point F))
    rfl Point.ofGroup_add n A

/-- A source group is a module if its way of forming multiples gives the multiples of members. -/
theorem sourceGroup_moduleLaws [Point.SmoothCurve C.b] {S : ScalarField Fr}
    (hvalue : ∀ k, S.value k = k.val)
    (hmultiple : ∀ n {P}, C.Member P → multiple n P = P.multiple n) :
    (sourceGroup group C hash report reader multiple random).ModuleLaws S C.Member where
  isModule := sourceGroup_isModule
  sub _ _ := rfl
  scale k P hP := by
    rw [sourceGroup_copies_eq hP, hvalue]
    exact hmultiple k.val hP

end SourceGroup

section TargetGroup

variable {generator : Fp12} {length : ℕ} {report : Report} {toBytes : Fp12 → Bytes}
variable {reader : Bytes → Option Fp12} {random : Draw Fp12}

/-- The members are units, and the units are a group. -/
theorem targetGroup_isModule :
    (targetGroup generator length report toBytes reader random).operations.IsModule
      TargetMember := by
  refine .of_map (A := Additive Fp12ˣ) (f := fun u ↦ (u.toMul : Fp12)) rfl (fun _ _ ↦ rfl)
    (fun u ↦ Units.val_inv_eq_inv_val u.toMul) ⟨fun h ↦ ?_, ?_⟩
  · rw [targetMember_iff] at h
    have hunit : IsUnit _ := IsUnit.of_pow_eq_one h groupOrder_prime.ne_zero
    exact ⟨.ofMul hunit.unit, rfl, congrArg Additive.ofMul (Units.ext h)⟩
  · rintro ⟨u, rfl, hu⟩
    rw [targetMember_iff, ← Units.val_pow_eq_pow_val, Units.val_eq_one]
    exact congrArg Additive.toMul hu

theorem targetGroup_copies_eq (n : ℕ) (f : Fp12) :
    (targetGroup generator length report toBytes reader random).operations.copies n f =
      power f n := by
  rw [power_eq_pow]
  induction n with
  | zero => exact (pow_zero f).symm
  | succ n ih => rw [GroupOperations.copies, ih, pow_succ]; rfl

/-- A power is as many copies as the scalar says, of every field element. -/
theorem targetGroup_scale_eq {S : ScalarField Fr} (hvalue : ∀ k, S.value k = k.val) (k : Fr)
    (f : Fp12) : (targetGroup generator length report toBytes reader random).scale k f =
      (targetGroup generator length report toBytes reader random).operations.copies (S.value k)
        f := by
  rw [targetGroup_copies_eq, hvalue]
  rfl

theorem targetGroup_moduleLaws {S : ScalarField Fr} (hvalue : ∀ k, S.value k = k.val) :
    (targetGroup generator length report toBytes reader random).ModuleLaws S TargetMember where
  isModule := targetGroup_isModule
  scale k f _ := targetGroup_scale_eq hvalue k f

end TargetGroup

end Bls12

theorem plainScalars_value (k : Fr) : plainScalars.value k = k.val := by
  rw [plainScalars_eq, residueField_value]

theorem torusMembership_moduleLaws (M : Torus.Maps) :
    (torusBackendOver M).ModuleLaws (torusMembership M) where
  scalars := plainScalars_isResidueField
  zr s := s.isLt
  g1 := sourceGroup_moduleLaws plainScalars_value fun _ _ _ ↦ rfl
  g2 := sourceGroup_moduleLaws plainScalars_value fun _ _ _ ↦ rfl
  target := targetGroup_moduleLaws plainScalars_value

theorem coefficientMembership_moduleLaws : coefficientBackend.ModuleLaws coefficientMembership where
  scalars := residueField_isResidueField _ _
  zr s := s.isLt
  g1 := sourceGroup_moduleLaws (residueField_value _ _) fun _ _ hP ↦ if_pos hP
  g2 := sourceGroup_moduleLaws (residueField_value _ _) fun _ _ _ ↦ rfl
  target := targetGroup_moduleLaws (residueField_value _ _)

/-! ## The exponent model -/

namespace ExponentModel

theorem addition_isModule : addition.IsModule ExponentMember :=
  .of_map (f := fun a : Fr ↦ a) rfl (fun _ _ ↦ rfl) (fun _ ↦ rfl)
    ⟨fun h ↦ ⟨_, rfl, h.2⟩, fun ⟨a, h, _⟩ ↦ h ▸ exponentMember a⟩

theorem source_moduleLaws : source.ModuleLaws scalars ExponentMember where
  isModule := addition_isModule
  sub := source_laws.sub
  scale := source_laws.scale

theorem target_moduleLaws : target.ModuleLaws scalars ExponentMember where
  isModule := addition_isModule
  scale := target_laws.scale

end ExponentModel

theorem exponentMembership_moduleLaws : exponentModel.ModuleLaws exponentMembership where
  scalars := plainScalars_isResidueField
  zr s := s.isLt
  g1 := ExponentModel.source_moduleLaws
  g2 := ExponentModel.source_moduleLaws
  target := ExponentModel.target_moduleLaws

/-- The groups of every backend are modules over its scalars. -/
theorem Backend.Membership.Supported.moduleLaws {M : B.Membership} (h : M.Supported) :
    B.ModuleLaws M := by
  rcases h with (M | _) | _
  · exact torusMembership_moduleLaws M
  · exact coefficientMembership_moduleLaws
  · exact exponentMembership_moduleLaws

end BilinearGroups
