import BilinearGroups.Proofs.Backend.GroupOrder
import BilinearGroups.Proofs.Element.Exponent
import BilinearGroups.Proofs.Element.Matching
import BilinearGroups.Proofs.Pairing.Product

/-!
# Corresponding values of two lawful backends

Over two backends with the laws of groups, values correspond if they belong to the same group and
have the same exponent there. An operation takes corresponding values to corresponding values, or
fails for the same reason over both backends, since either way it is computed on exponents. A
pairing multiplies exponents, so the same holds for pairings and their products. Hence
correspondence is a matching of the two backends (`exponentMatching`).

Its scope leaves out whatever is not computed on exponents: encodings, draws and hashes. It also
leaves out the second source group on the left of a pairing and the first on the right, where only
a symmetric backend accepts them.
-/

namespace BilinearGroups

open Bls12

variable {B B' : Backend} {M : B.Membership} {M' : B'.Membership}

/-- The values belong to a group and have the same exponent there. -/
def Value.Corresponds (v : Value B) (v' : Value B') : Prop :=
  ∃ g x, v.HasExponent g x ∧ v'.HasExponent g x

namespace Value.Corresponds

variable {v w : Value B} {v' w' : Value B'} {s : B.Scalar} {s' : B'.Scalar}

theorem group_eq (hv : v.Corresponds v') : v.group = v'.group := by
  obtain ⟨g, x, hx, hx'⟩ := hv
  exact hx.group_eq.trans hx'.group_eq.symm

/-- Corresponding scalars are the same residue. -/
theorem residue_eq (h : Corresponds (.zr s) (.zr s')) :
    B.scalars.residue s = B'.scalars.residue s' := by
  obtain ⟨g, x, hx, hx'⟩ := h
  cases hx with
  | zr hs =>
    cases hx' with
    | zr hs' => exact hs.trans hs'.symm

/-- Values of one group have exponents in the same group as the values that they correspond to. -/
theorem exists_exponents (hgroup : v.group = w.group) (hv : v.Corresponds v')
    (hw : w.Corresponds w') : ∃ g x y, (v.HasExponent g x ∧ v'.HasExponent g x) ∧
      w.HasExponent g y ∧ w'.HasExponent g y := by
  obtain ⟨g, x, hx⟩ := hv
  obtain ⟨h, y, hy⟩ := hw
  obtain rfl : g = h := hx.1.group_eq.symm.trans (hgroup.trans hy.1.group_eq)
  exact ⟨g, x, y, hx, hy⟩

/-- Computations correspond that have the same exponents. -/
theorem of_exponents {z : Except Error Fr} {g : Group} {u : Except Error (Value B)}
    {u' : Except Error (Value B')} (hu : Agree (fun v x ↦ v.HasExponent g x) u z)
    (hu' : Agree (fun v x ↦ v.HasExponent g x) u' z) : Agree Corresponds u u' :=
  (hu.both hu').mono fun _ _ ⟨x, hx⟩ ↦ ⟨g, x, hx⟩

/-! ## Operations -/

section Laws

variable (hB : B.GroupLaws M) (hB' : B'.GroupLaws M')

include hB hB'

theorem isIdentity (hv : v.Corresponds v') : v.isIdentity = v'.isIdentity := by
  obtain ⟨g, x, hx, hx'⟩ := hv
  rw [Bool.eq_iff_iff, hx.isIdentity_iff hB, hx'.isIdentity_iff hB']

theorem isOne (hv : v.Corresponds v') : v.isOne = v'.isOne := by
  obtain ⟨g, x, hx, hx'⟩ := hv
  rw [Bool.eq_iff_iff, hx.isOne_iff hB, hx'.isOne_iff hB']

theorem eq_iff (hv : v.Corresponds v') (hw : w.Corresponds w') : v = w ↔ v' = w' := by
  by_cases hgroup : v.group = w.group
  · obtain ⟨g, x, y, ⟨hx, hx'⟩, hy, hy'⟩ := exists_exponents hgroup hv hw
    rw [hx.eq_iff hB hy, hx'.eq_iff hB' hy']
  -- Values of different groups differ over both backends.
  · have hgroup' : v'.group ≠ w'.group := by rwa [← hv.group_eq, ← hw.group_eq]
    exact iff_of_false (mt (congrArg Value.group) hgroup) (mt (congrArg Value.group) hgroup')

theorem orderBytes : B.scalars.orderBytes = B'.scalars.orderBytes :=
  hB.scalars.orderBytes_eq.trans hB'.scalars.orderBytes_eq.symm

theorem scalarBytes (h : Corresponds (.zr s) (.zr s')) :
    B.scalars.toBytes s = B'.scalars.toBytes s' := by
  rw [hB.scalars.toBytes, hB'.scalars.toBytes, h.residue_eq]

theorem identity (g : Group) : (.identity g : Value B).Corresponds (.identity g : Value B') :=
  ⟨g, 0, .identity hB g, .identity hB' g⟩

theorem one (g : Group) : (.one g : Value B).Corresponds (.one g : Value B') :=
  ⟨g, _, .one hB g, .one hB' g⟩

theorem integer (n : Int64) :
    Corresponds (.zr (B.scalars.ofInt64 n)) (.zr (B'.scalars.ofInt64 n)) :=
  ⟨.zr, _, .integer hB n, .integer hB' n⟩

theorem generator (g : Group) :
    Agree Corresponds (Value.generator (B := B) g) (Value.generator (B := B') g) :=
  of_exponents (HasExponent.generator hB g) (HasExponent.generator hB' g)

theorem combine (op : BinaryOp) (hv : v.Corresponds v') (hw : w.Corresponds w')
    (hgroup : v.group = w.group) : Agree Corresponds (v.combine op w) (v'.combine op w') := by
  obtain ⟨g, x, y, ⟨hx, hx'⟩, hy, hy'⟩ := exists_exponents hgroup hv hw
  exact of_exponents (hx.combine hB hy op) (hx'.combine hB' hy' op)

theorem inverse (hv : v.Corresponds v') : Agree Corresponds v.inverse v'.inverse := by
  obtain ⟨g, x, hx, hx'⟩ := hv
  exact of_exponents (hx.inverse hB) (hx'.inverse hB')

theorem negative (hv : v.Corresponds v') : v.negative.Corresponds v'.negative := by
  obtain ⟨g, x, hx, hx'⟩ := hv
  exact ⟨g, -x, hx.negative hB, hx'.negative hB'⟩

theorem multiple (hs : Corresponds (.zr s) (.zr s')) (hv : v.Corresponds v') :
    (v.multiple s).Corresponds (v'.multiple s') := by
  obtain ⟨g, x, hx, hx'⟩ := hv
  refine ⟨g, _, hx.multiple hB s, ?_⟩
  rw [hs.residue_eq]
  exact hx'.multiple hB' s'

theorem power (hs : Corresponds (.zr s) (.zr s')) (hv : v.Corresponds v') :
    (v.power s).Corresponds (v'.power s') := by
  obtain ⟨g, x, hx, hx'⟩ := hv
  refine ⟨g, _, hx.power hB s, ?_⟩
  rw [hs.residue_eq]
  exact hx'.power hB' s'

end Laws

/-! ## Pairings -/

theorem leftPoint (hgroup : v.group ≠ .g2) (hv : v.Corresponds v') :
    Agree (fun p p' ↦ Corresponds (.g1 p) (.g1 p')) (Context.leftPoint v)
      (Context.leftPoint v') := by
  obtain ⟨g, x, hx, hx'⟩ := hv
  cases hx with
  | g1 =>
    cases hx'
    exact .ok ⟨.g1, x, .g1 x, .g1 x⟩
  | g2 => exact absurd rfl hgroup
  | gt | zr =>
    cases hx'
    exact .error _

theorem rightPoint (hgroup : v.group ≠ .g1) (hv : v.Corresponds v') :
    Agree (fun q q' ↦ Corresponds (.g2 q) (.g2 q')) (Context.rightPoint v)
      (Context.rightPoint v') := by
  obtain ⟨g, y, hy, hy'⟩ := hv
  cases hy with
  | g2 =>
    cases hy'
    exact .ok ⟨.g2, y, .g2 y, .g2 y⟩
  | g1 => exact absurd rfl hgroup
  | gt | zr =>
    cases hy'
    exact .error _

section Lawful

variable (hB : B.Lawful M) (hB' : B'.Lawful M')

include hB hB'

theorem pairing {p : B.G1} {p' : B'.G1} {q : B.G2} {q' : B'.G2}
    (hp : Corresponds (.g1 p) (.g1 p')) (hq : Corresponds (.g2 q) (.g2 q')) :
    Corresponds (.gt (B.pairing p q)) (.gt (B'.pairing p' q')) := by
  obtain ⟨_, x, ⟨⟩, ⟨⟩⟩ := hp
  obtain ⟨_, y, ⟨⟩, ⟨⟩⟩ := hq
  rw [hB.pairing_element, hB'.pairing_element]
  exact ⟨.gt, x * y, .gt _, .gt _⟩

/-- The products of the pairings of corresponding points, begun with corresponding elements. -/
theorem multiplyPoints {points : List (B.G1 × B.G2)} {points' : List (B'.G1 × B'.G2)}
    (hpoints : List.Forall₂ (fun pq pq' ↦ Corresponds (.g1 pq.1) (.g1 pq'.1) ∧
      Corresponds (.g2 pq.2) (.g2 pq'.2)) points points') {t : B.Target} {t' : B'.Target}
    (ht : Corresponds (.gt t) (.gt t')) :
    Corresponds (.gt (Context.multiplyPoints t points))
      (.gt (Context.multiplyPoints t' points')) := by
  induction hpoints generalizing t t' with
  | nil => exact ht
  | cons hpoint _ ih =>
    have hpairing := pairing hB hB' hpoint.1 hpoint.2
    cases ht.combine hB.toGroupLaws hB'.toGroupLaws .mul hpairing rfl with
    | ok hproduct => exact ih hproduct

theorem pairingProduct {points : List (B.G1 × B.G2)} {points' : List (B'.G1 × B'.G2)}
    (hpoints : List.Forall₂ (fun pq pq' ↦ Corresponds (.g1 pq.1) (.g1 pq'.1) ∧
      Corresponds (.g2 pq.2) (.g2 pq'.2)) points points') :
    Agree (fun t t' ↦ Corresponds (.gt t) (.gt t'))
      (B.pairingProduct (points.map Prod.fst) (points.map Prod.snd))
      (B'.pairingProduct (points'.map Prod.fst) (points'.map Prod.snd)) := by
  rw [Context.pairingProduct_points hB.product, Context.pairingProduct_points hB'.product]
  have hone := identity hB.toGroupLaws hB'.toGroupLaws .gt
  exact .ok (multiplyPoints hB hB' hpoints hone)

end Lawful

end Value.Corresponds

/-- Values match that correspond. -/
def exponentMatching (hB : B.Lawful M) (hB' : B'.Lawful M') : Matching B B' where
  Values := Value.Corresponds
  Reads _ _ := False
  Decompresses := False
  Draws := False
  Hashes := False
  Left g := g ≠ .g2
  Right g := g ≠ .g1
  group_eq := Value.Corresponds.group_eq
  eq_iff := Value.Corresponds.eq_iff hB.toGroupLaws hB'.toGroupLaws
  orderBytes := Value.Corresponds.orderBytes hB.toGroupLaws hB'.toGroupLaws
  scalarBytes := Value.Corresponds.scalarBytes hB.toGroupLaws hB'.toGroupLaws
  identity := Value.Corresponds.identity hB.toGroupLaws hB'.toGroupLaws
  one := Value.Corresponds.one hB.toGroupLaws hB'.toGroupLaws
  integer := Value.Corresponds.integer hB.toGroupLaws hB'.toGroupLaws
  generator := Value.Corresponds.generator hB.toGroupLaws hB'.toGroupLaws
  random := False.elim
  hash := False.elim
  combine op _ _ _ _ hgroup hv hw := hv.combine hB.toGroupLaws hB'.toGroupLaws op hw hgroup
  inverse := Value.Corresponds.inverse hB.toGroupLaws hB'.toGroupLaws
  negative := Value.Corresponds.negative hB.toGroupLaws hB'.toGroupLaws
  multiple := Value.Corresponds.multiple hB.toGroupLaws hB'.toGroupLaws
  power := Value.Corresponds.power hB.toGroupLaws hB'.toGroupLaws
  read := False.elim
  readCompressed := False.elim
  compressedByteLength := False.elim
  leftPoint := Value.Corresponds.leftPoint
  rightPoint := Value.Corresponds.rightPoint
  pairing := Value.Corresponds.pairing hB hB'
  pairingProduct := Value.Corresponds.pairingProduct hB hB'

end BilinearGroups
