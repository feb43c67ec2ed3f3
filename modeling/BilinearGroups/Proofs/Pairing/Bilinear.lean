import BilinearGroups.Proofs.Backend.Instances
import BilinearGroups.Proofs.Element.Arithmetic
import BilinearGroups.Proofs.Pairing.Operands

/-!
# The pairing of elements is bilinear

Over a backend with a bilinear pairing of points, the pairing of elements is bilinear too, whichever
source groups the operands come from. Up to fixed factors that are not zero, the exponent of a
pairing is the product of the exponents of its operands (`exists_pair_exponent`). The factors depend
on the groups of the operands only, because the maps between the source groups of a symmetric
backend multiply exponents. All laws are equations between exponents from there on.
-/

namespace BilinearGroups

open Bls12 Context

variable {B : Backend} {M : B.Membership}

namespace Context

/-- The element belongs to the context and to its group, and is accepted on the left of a
pairing. -/
structure LeftOperand (M : B.Membership) (c : Context B) (a : Element B) : Prop where
  context : c.sameAs a.context = true
  accepted : AcceptsLeft B a.group
  member : M.Holds a.value

/-- The element belongs to the context and to its group, and is accepted on the right of a
pairing. -/
structure RightOperand (M : B.Membership) (c : Context B) (b : Element B) : Prop where
  context : c.sameAs b.context = true
  accepted : AcceptsRight B b.group
  member : M.Holds b.value

/-- The element is a scalar of the context. -/
structure ScalarOperand (c : Context B) (z : Element B) : Prop where
  context : c.sameAs z.context = true
  scalar : z.group = .zr

end Context

namespace Backend.Bilinear

variable (hB : B.Bilinear M)

include hB

/-- Every operand is a point whose exponent is a fixed multiple of its own. One factor goes with
each group, and on the right there is one more for all of them. -/
theorem exists_operand_factors : ∃ (k : Fr) (l : Group → Fr), k ≠ 0 ∧ (∀ g, l g ≠ 0) ∧
    ∀ {v : Value B} {g : Group} {x : Fr}, v.HasExponent g x →
      (AcceptsLeft B g → leftPoint v = .ok (B.g1.operations.element (l g * x))) ∧
      (AcceptsRight B g → rightPoint v = .ok (B.g2.operations.element (k * (l g * x)))) := by
  cases hi : B.identification with
  | none =>
    refine ⟨1, fun _ ↦ 1, one_ne_zero, fun _ ↦ one_ne_zero, ?_⟩
    have hasymmetric : ¬B.isSymmetric = true := by
      rw [isSymmetric, hi]
      exact nofun
    intro v g x hv
    simp only [one_mul]
    cases hv with
    | g1 x => exact ⟨fun _ ↦ rfl, fun h ↦ by simp [AcceptsRight, hasymmetric] at h⟩
    | g2 x => exact ⟨fun h ↦ by simp [AcceptsLeft, hasymmetric] at h, fun _ ↦ rfl⟩
    | gt x | zr h => exact ⟨by simp [AcceptsLeft], by simp [AcceptsRight]⟩
  | some i =>
    have hlaws := hB.identification hi
    obtain ⟨u, hu⟩ := hB.g2.cyclic.exists_factor hB.g1.cyclic (f := i.toG1)
      hlaws.toG1_mem hlaws.toG1_add
    obtain ⟨k, hk⟩ := hB.g1.cyclic.exists_factor hB.g2.cyclic (f := i.toG2)
      hlaws.toG2_mem hlaws.toG2_add
    have hku : k * u = 1 := by
      apply hB.g2.cyclic.element_injective
      have hback := hlaws.toG2_toG1 (hB.g2.cyclic.member_element 1)
      rw [hu, hk, mul_one] at hback
      exact hback
    refine ⟨k, fun g ↦ if g = .g2 then u else 1, left_ne_zero_of_mul_eq_one hku, ?_, ?_⟩
    · intro g
      dsimp only
      split_ifs
      · exact right_ne_zero_of_mul_eq_one hku
      · exact one_ne_zero
    intro v g x hv
    cases hv with
    | g1 x =>
      dsimp only
      rw [if_neg (show Group.g1 ≠ .g2 by decide), one_mul, leftPoint, rightPoint, hi, ← hk]
      exact ⟨fun _ ↦ rfl, fun _ ↦ rfl⟩
    | g2 x =>
      dsimp only
      rw [if_pos rfl, ← mul_assoc, hku, one_mul, leftPoint, rightPoint, hi, ← hu]
      exact ⟨fun _ ↦ rfl, fun _ ↦ rfl⟩
    | gt x | zr h => exact ⟨by simp [AcceptsLeft], by simp [AcceptsRight]⟩

/-- The exponent of a pairing is the product of the exponents of its operands, up to a factor for
the group of each operand. -/
theorem exists_pair_exponent (c : Context B) : ∃ (w : Fr) (l : Group → Fr), w ≠ 0 ∧ (∀ g, l g ≠ 0) ∧
    ∀ {a b : Element B} {g h : Group} {x y : Fr}, AcceptsLeft B g → AcceptsRight B h →
      a.HasExponent c g x → b.HasExponent c h y →
      c.pair a b = .ok ⟨c, .gt (B.target.operations.element (w * (l g * x) * (l h * y)))⟩ := by
  obtain ⟨w, hw, hpairing⟩ := hB.exists_pairing_element
  obtain ⟨k, l, hk, hl, hpoints⟩ := hB.exists_operand_factors
  refine ⟨w * k, l, mul_ne_zero hw hk, hl, ?_⟩
  intro a b g h x y hleft hright ha hb
  rw [pair, sourcePoints, ha.context, hb.context, (hpoints ha.value).1 hleft,
    (hpoints hb.value).2 hright]
  show Except.ok (⟨c, .gt (B.pairing _ _)⟩ : Element B) = _
  rw [hpairing]
  congr 4
  ring

/-- Between points of the two source groups there is one factor. -/
theorem exists_pair_factor (c : Context B) : ∃ w : Fr, w ≠ 0 ∧
    ∀ {a b : Element B} {x y : Fr}, a.HasExponent c .g1 x → b.HasExponent c .g2 y →
      c.pair a b = .ok ⟨c, .gt (B.target.operations.element (w * (x * y)))⟩ := by
  obtain ⟨w, l, hw, hl, hpair⟩ := hB.exists_pair_exponent c
  refine ⟨w * l .g1 * l .g2, mul_ne_zero (mul_ne_zero hw (hl .g1)) (hl .g2), ?_⟩
  intro a b x y ha hb
  rw [hpair (.inl rfl) (.inl rfl) ha hb]
  congr 4
  ring

end Backend.Bilinear

/-! ## Laws -/

namespace Context

variable {c : Context B} {a a' b b' x y : Element B}

theorem hasExponent_target (c : Context B) (z : Fr) :
    (⟨c, .gt (B.target.operations.element z)⟩ : Element B).HasExponent c .gt z :=
  ⟨beq_self_eq_true _, .gt z⟩

theorem eq_of_hasExponent_target {v : Value B} {z : Fr} (h : v.HasExponent .gt z) :
    (Element.fresh c .gt).withValue v = ⟨c, .gt (B.target.operations.element z)⟩ := by
  cases h
  rfl

section Target

variable (hG : B.GroupLaws M) (c : Context B)

include hG

theorem combine_target (x y : Fr) :
    (Element.combine .mul ⟨c, .gt (B.target.operations.element x)⟩
      ⟨c, .gt (B.target.operations.element y)⟩).result (Element.fresh c .gt)
      = .ok ⟨c, .gt (B.target.operations.element (x + y))⟩ := by
  obtain ⟨v, hresult, hv⟩ := (hasExponent_target c x).combine hG .mul
    (Exponent.combine_mul_gt x y) (hasExponent_target c y) (.fresh hG .gt)
  rw [hresult, eq_of_hasExponent_target hv]

theorem neg_target (x : Fr) :
    (Element.neg ⟨c, .gt (B.target.operations.element x)⟩).result (Element.fresh c .gt)
      = .ok ⟨c, .gt (B.target.operations.element (-x))⟩ := by
  obtain ⟨v, hresult, hv⟩ := (hasExponent_target c x).neg hG (.fresh hG .gt)
  rw [hresult, eq_of_hasExponent_target hv]

theorem powScalar_target {z : Element B} {k : Fr} (hz : z.HasExponent c .zr k) (x : Fr) :
    (Element.powScalar ⟨c, .gt (B.target.operations.element x)⟩ z).result (Element.fresh c .gt)
      = .ok ⟨c, .gt (B.target.operations.element (k * x))⟩ := by
  obtain ⟨v, hresult, hv⟩ := (hasExponent_target c x).powScalar hG hz (.fresh hG .gt)
  rw [hresult, eq_of_hasExponent_target hv]
  rfl

end Target

theorem ScalarOperand.exists_exponent (hx : c.ScalarOperand x) :
    ∃ k, x.HasExponent c .zr k := by
  obtain ⟨d, v⟩ := x
  cases v with
  | zr s => exact ⟨_, hx.context, .zr rfl⟩
  | g1 | g2 | gt => cases hx.scalar

theorem LeftOperand.exists_exponent (hG : B.GroupLaws M) (ha : c.LeftOperand M a) :
    ∃ s, a.HasExponent c a.group s :=
  Element.HasExponent.exists_of_holds hG ha.context ha.member

theorem RightOperand.exists_exponent (hG : B.GroupLaws M) (hb : c.RightOperand M b) :
    ∃ t, b.HasExponent c b.group t :=
  Element.HasExponent.exists_of_holds hG hb.context hb.member

variable (hB : B.Bilinear M)

include hB

/-- The pairing of multiples is the power by the product of the scalars. -/
theorem pair_mulScalar (ha : c.LeftOperand M a) (hb : c.RightOperand M b) (hx : c.ScalarOperand x)
    (hy : c.ScalarOperand y) :
    ∃ xa yb xy e p, (Element.mulScalar a x).result a.freshLike = .ok xa ∧
      (Element.mulScalar b y).result b.freshLike = .ok yb ∧
      (Element.combine .mul x y).result x.freshLike = .ok xy ∧ c.pair a b = .ok e ∧
      (Element.powScalar e xy).result e.freshLike = .ok p ∧ c.pair xa yb = .ok p := by
  have hG := hB.toGroupLaws
  obtain ⟨w, l, -, -, hpair⟩ := hB.exists_pair_exponent c
  obtain ⟨s, hs⟩ := ha.exists_exponent hG
  obtain ⟨t, ht⟩ := hb.exists_exponent hG
  obtain ⟨j, hj⟩ := hx.exists_exponent
  obtain ⟨k, hk⟩ := hy.exists_exponent
  obtain ⟨va, hxa, hva⟩ := hs.mulScalar hG hj (hs.freshLike hG)
  obtain ⟨vb, hyb, hvb⟩ := ht.mulScalar hG hk (ht.freshLike hG)
  obtain ⟨vx, hxy, hvx⟩ := hj.combine hG .mul rfl hk (hj.freshLike hG)
  have hproduct : ((x.freshLike).withValue vx).HasExponent c .zr (j * k) :=
    (hj.freshLike hG).withValue hvx
  refine ⟨_, _, _, _, _, hxa, hyb, hxy, hpair ha.accepted hb.accepted hs ht,
    powScalar_target hG c hproduct _, ?_⟩
  rw [hpair ha.accepted hb.accepted ((hs.freshLike hG).withValue hva)
    ((ht.freshLike hG).withValue hvb)]
  congr 4
  ring

/-- The pairing of a sum on the left is the product of the pairings. -/
theorem pair_add_left (ha : c.LeftOperand M a) (ha' : c.LeftOperand M a')
    (hb : c.RightOperand M b) (hgroup : a.group = a'.group) :
    ∃ d e e' p, (Element.combine .add a a').result a.freshLike = .ok d ∧ c.pair a b = .ok e ∧
      c.pair a' b = .ok e' ∧ (Element.combine .mul e e').result e.freshLike = .ok p ∧
      c.pair d b = .ok p := by
  have hG := hB.toGroupLaws
  obtain ⟨w, l, -, -, hpair⟩ := hB.exists_pair_exponent c
  obtain ⟨s, hs⟩ := ha.exists_exponent hG
  obtain ⟨s', hs'⟩ := ha'.exists_exponent hG
  obtain ⟨t, ht⟩ := hb.exists_exponent hG
  rw [← hgroup] at hs'
  obtain ⟨v, hd, hv⟩ :=
    hs.combine hG .add (Exponent.combine_add a.group s s') hs' (hs.freshLike hG)
  refine ⟨_, _, _, _, hd, hpair ha.accepted hb.accepted hs ht,
    hpair ha.accepted hb.accepted hs' ht, combine_target hG c _ _, ?_⟩
  rw [hpair ha.accepted hb.accepted ((hs.freshLike hG).withValue hv) ht]
  congr 4
  ring

/-- The pairing of a sum on the right is the product of the pairings. -/
theorem pair_add_right (ha : c.LeftOperand M a) (hb : c.RightOperand M b)
    (hb' : c.RightOperand M b') (hgroup : b.group = b'.group) :
    ∃ d e e' p, (Element.combine .add b b').result b.freshLike = .ok d ∧ c.pair a b = .ok e ∧
      c.pair a b' = .ok e' ∧ (Element.combine .mul e e').result e.freshLike = .ok p ∧
      c.pair a d = .ok p := by
  have hG := hB.toGroupLaws
  obtain ⟨w, l, -, -, hpair⟩ := hB.exists_pair_exponent c
  obtain ⟨s, hs⟩ := ha.exists_exponent hG
  obtain ⟨t, ht⟩ := hb.exists_exponent hG
  obtain ⟨t', ht'⟩ := hb'.exists_exponent hG
  rw [← hgroup] at ht'
  obtain ⟨v, hd, hv⟩ :=
    ht.combine hG .add (Exponent.combine_add b.group t t') ht' (ht.freshLike hG)
  refine ⟨_, _, _, _, hd, hpair ha.accepted hb.accepted hs ht,
    hpair ha.accepted hb.accepted hs ht', combine_target hG c _ _, ?_⟩
  rw [hpair ha.accepted hb.accepted hs ((ht.freshLike hG).withValue hv)]
  congr 4
  ring

/-- The pairing of a negative is the negative of the pairing. -/
theorem pair_neg_left (ha : c.LeftOperand M a) (hb : c.RightOperand M b) :
    ∃ d e p, (Element.neg a).result a.freshLike = .ok d ∧ c.pair a b = .ok e ∧
      (Element.neg e).result e.freshLike = .ok p ∧ c.pair d b = .ok p := by
  have hG := hB.toGroupLaws
  obtain ⟨w, l, -, -, hpair⟩ := hB.exists_pair_exponent c
  obtain ⟨s, hs⟩ := ha.exists_exponent hG
  obtain ⟨t, ht⟩ := hb.exists_exponent hG
  obtain ⟨v, hd, hv⟩ := hs.neg hG (hs.freshLike hG)
  refine ⟨_, _, _, hd, hpair ha.accepted hb.accepted hs ht, neg_target hG c _, ?_⟩
  rw [hpair ha.accepted hb.accepted ((hs.freshLike hG).withValue hv) ht]
  congr 4
  ring

/-- The pairing is trivial only if an operand is. -/
theorem pair_isOne_iff (ha : c.LeftOperand M a) (hb : c.RightOperand M b) :
    ∃ e, c.pair a b = .ok e ∧ (e.isOne = true ↔ a.isZero = true ∨ b.isZero = true) := by
  have hG := hB.toGroupLaws
  obtain ⟨w, l, hw, hl, hpair⟩ := hB.exists_pair_exponent c
  obtain ⟨s, hs⟩ := ha.exists_exponent hG
  obtain ⟨t, ht⟩ := hb.exists_exponent hG
  refine ⟨_, hpair ha.accepted hb.accepted hs ht, ?_⟩
  rw [(hasExponent_target c _).isOne_iff hG, hs.isZero_iff hG, ht.isZero_iff hG, Exponent.one]
  simp [hw, hl]

/-- A symmetric pairing does not depend on the order of its operands, whatever their groups. -/
theorem pair_comm (hsymmetric : B.isSymmetric = true) (ha : c.LeftOperand M a)
    (hb : c.RightOperand M b) : ∃ e, c.pair a b = .ok e ∧ c.pair b a = .ok e := by
  have hG := hB.toGroupLaws
  obtain ⟨w, l, -, -, hpair⟩ := hB.exists_pair_exponent c
  obtain ⟨s, hs⟩ := ha.exists_exponent hG
  obtain ⟨t, ht⟩ := hb.exists_exponent hG
  have hright : AcceptsRight B a.group := ha.accepted.symm.imp And.right fun h ↦ ⟨hsymmetric, h⟩
  have hleft : AcceptsLeft B b.group := hb.accepted.symm.imp And.right fun h ↦ ⟨hsymmetric, h⟩
  refine ⟨_, hpair ha.accepted hb.accepted hs ht, ?_⟩
  rw [hpair hleft hright ht hs]
  congr 4
  ring

end Context

/-- The element of the other source group that is the same point, over a symmetric backend. -/
def Element.retagged (i : SourceIdentification B.G1 B.G2) (e : Element B) : Element B :=
  e.withValue (match e.value with
    | .g1 p => .g2 (i.toG2 p)
    | .g2 q => .g1 (i.toG1 q)
    | v => v)

namespace Context

variable {c : Context B} {a b : Element B} {i : SourceIdentification B.G1 B.G2}

theorem leftPoint_retagged (hlaws : B.IdentificationLaws M i) (hi : B.identification = some i)
    (ha : M.Holds a.value) : leftPoint (a.retagged i).value = leftPoint a.value := by
  obtain ⟨d, v⟩ := a
  cases v with
  | g1 p =>
    show leftPoint (.g2 (i.toG2 p)) = _
    rw [leftPoint_g2 hi, hlaws.toG1_toG2 ha]
    rfl
  | g2 q =>
    show _ = leftPoint (.g2 q)
    rw [leftPoint_g2 hi]
    rfl
  | gt | zr => rfl

theorem rightPoint_retagged (hlaws : B.IdentificationLaws M i) (hi : B.identification = some i)
    (hb : M.Holds b.value) : rightPoint (b.retagged i).value = rightPoint b.value := by
  obtain ⟨d, v⟩ := b
  cases v with
  | g1 p =>
    show _ = rightPoint (.g1 p)
    rw [rightPoint_g1 hi]
    rfl
  | g2 q =>
    show rightPoint (.g1 (i.toG1 q)) = _
    rw [rightPoint_g1 hi, hlaws.toG2_toG1 hb]
    rfl
  | gt | zr => rfl

/-- A point of a symmetric pairing may be named in either source group. -/
theorem pair_retagged (hB : B.Bilinear M) (hi : B.identification = some i)
    (ha : M.Holds a.value) (hb : M.Holds b.value) :
    c.pair (a.retagged i) b = c.pair a b ∧ c.pair a (b.retagged i) = c.pair a b := by
  have hlaws := hB.identification hi
  constructor
  · rw [pair, sourcePoints, leftPoint_retagged hlaws hi ha]
    rfl
  · rw [pair, sourcePoints, rightPoint_retagged hlaws hi hb]
    rfl

end Context

/-- Over every backend with a bilinear pairing of points, and for all elements of its groups. The
pairing accepts operands of its context, from one source group on each side or over a symmetric
backend from both on either; it refuses others for the first reason there is. The pairing of
multiples is the power by the product of the scalars; sums and negatives become products and
inverses; and the pairing is trivial only if an operand is. A symmetric pairing depends neither on
the order of its operands nor on the source group that a point is named in.

The exponent model is such a backend, in which every value belongs to its group. -/
theorem pair_bilinear :
    (exponentModel.Bilinear exponentMembership ∧ exponentModel.isSymmetric = true ∧
      ∀ v : Value exponentModel, exponentMembership.Holds v) ∧
    ∀ (B : Backend) (M : B.Membership), B.Bilinear M → ∀ c : Context B,
      (∀ a b,
        ((∃ e, c.pair a b = .ok e) ↔ (c.sameAs a.context = true ∧ c.sameAs b.context = true) ∧
          AcceptsLeft B a.group ∧ AcceptsRight B b.group) ∧
        (¬(c.sameAs a.context = true ∧ c.sameAs b.context = true) →
          c.pair a b = .error .wrongContext) ∧
        (c.sameAs a.context = true ∧ c.sameAs b.context = true → ¬AcceptsLeft B a.group →
          c.pair a b = .error (.wrongGroup .g1 a.group)) ∧
        (c.sameAs a.context = true ∧ c.sameAs b.context = true → AcceptsLeft B a.group →
          ¬AcceptsRight B b.group → c.pair a b = .error (.wrongGroup .g2 b.group))) ∧
      (∀ a b x y, c.LeftOperand M a → c.RightOperand M b → c.ScalarOperand x → c.ScalarOperand y →
        ∃ xa yb xy e p, (Element.mulScalar a x).result a.freshLike = .ok xa ∧
          (Element.mulScalar b y).result b.freshLike = .ok yb ∧
          (Element.combine .mul x y).result x.freshLike = .ok xy ∧ c.pair a b = .ok e ∧
          (Element.powScalar e xy).result e.freshLike = .ok p ∧ c.pair xa yb = .ok p) ∧
      (∀ a a' b, c.LeftOperand M a → c.LeftOperand M a' → c.RightOperand M b → a.group = a'.group →
        ∃ d e e' p, (Element.combine .add a a').result a.freshLike = .ok d ∧ c.pair a b = .ok e ∧
          c.pair a' b = .ok e' ∧ (Element.combine .mul e e').result e.freshLike = .ok p ∧
          c.pair d b = .ok p) ∧
      (∀ a b b', c.LeftOperand M a → c.RightOperand M b → c.RightOperand M b' → b.group = b'.group →
        ∃ d e e' p, (Element.combine .add b b').result b.freshLike = .ok d ∧ c.pair a b = .ok e ∧
          c.pair a b' = .ok e' ∧ (Element.combine .mul e e').result e.freshLike = .ok p ∧
          c.pair a d = .ok p) ∧
      (∀ a b, c.LeftOperand M a → c.RightOperand M b →
        (∃ d e p, (Element.neg a).result a.freshLike = .ok d ∧ c.pair a b = .ok e ∧
          (Element.neg e).result e.freshLike = .ok p ∧ c.pair d b = .ok p) ∧
        ∃ e, c.pair a b = .ok e ∧ (e.isOne = true ↔ a.isZero = true ∨ b.isZero = true)) ∧
      (∀ i, B.identification = some i → ∀ a b, c.LeftOperand M a → c.RightOperand M b →
        (∃ e, c.pair a b = .ok e ∧ c.pair b a = .ok e) ∧
        c.pair (a.retagged i) b = c.pair a b ∧ c.pair a (b.retagged i) = c.pair a b) := by
  refine ⟨⟨exponentModel_bilinear, rfl, exponentMembership_holds⟩, ?_⟩
  intro B M hB c
  refine ⟨pair_acceptance c, fun _ _ _ _ ↦ pair_mulScalar hB, fun _ _ _ ↦ pair_add_left hB,
    fun _ _ _ ↦ pair_add_right hB,
    fun _ _ ha hb ↦ ⟨pair_neg_left hB ha hb, pair_isOne_iff hB ha hb⟩, ?_⟩
  intro i hi a b ha hb
  have hsymmetric : B.isSymmetric = true := by rw [Backend.isSymmetric, hi, Option.isSome_some]
  exact ⟨pair_comm hB hsymmetric ha hb, pair_retagged hB hi ha.member hb.member⟩

open ExponentModel (elementOf)

theorem pair_bilinear_points :
    let c : Context exponentModel := .standard _
    let a := elementOf .g2 2
    let b := elementOf .g1 3
    c.pair (elementOf .zr 2) b = .error (.wrongGroup .g1 .zr) ∧
      (∃ xa yb xy e p, (Element.mulScalar a (elementOf .zr 5)).result a.freshLike = .ok xa ∧
        (Element.mulScalar b (elementOf .zr 7)).result b.freshLike = .ok yb ∧
        (Element.combine .mul (elementOf .zr 5) (elementOf .zr 7)).result
          (elementOf .zr 5).freshLike = .ok xy ∧ c.pair a b = .ok e ∧
        (Element.powScalar e xy).result e.freshLike = .ok p ∧ c.pair xa yb = .ok p) ∧
      (∃ e, c.pair a b = .ok e ∧ c.pair b a = .ok e) ∧
      c.pair (a.retagged ⟨id, id⟩) b = c.pair a b ∧ c.pair a b = .ok (elementOf .gt 6) := by
  intro c a b
  have ha : c.LeftOperand exponentMembership a :=
    ⟨rfl, .inr ⟨rfl, rfl⟩, exponentMembership_holds _⟩
  have hb : c.RightOperand exponentMembership b :=
    ⟨rfl, .inr ⟨rfl, rfl⟩, exponentMembership_holds _⟩
  obtain ⟨haccepted, hscalars, -, -, -, hswap⟩ :=
    pair_bilinear.2 exponentModel exponentMembership exponentModel_bilinear c
  obtain ⟨hcomm, hretagged, -⟩ := hswap ⟨id, id⟩ rfl a b ha hb
  exact ⟨(haccepted (elementOf .zr 2) b).2.2.1 ⟨rfl, rfl⟩ (by simp [AcceptsLeft, elementOf,
      Element.group, Value.group]), hscalars a b _ _ ha hb ⟨rfl, rfl⟩ ⟨rfl, rfl⟩, hcomm, hretagged,
    rfl⟩

end BilinearGroups
