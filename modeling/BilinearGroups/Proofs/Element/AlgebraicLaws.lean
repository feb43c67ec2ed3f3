import BilinearGroups.Proofs.Element.Members

/-!
# The laws of arithmetic on elements

Among the members of one context the scalars are a field, and each other group is a module over it.
The structures are those of the residues modulo the group order and of the groups of the backend,
carried over to elements; what has to be seen is that the operations on elements compute them
(`ComputesField`, `ComputesModule`). Every law of fields and modules is then a law of elements. In
particular a multiple vanishes only if the scalar or the element does, because the group order is a
prime.
-/

namespace BilinearGroups

open Bls12
open ExponentModel (elementOf)

variable {B : Backend} {M : B.Membership} {g : Group}

namespace Context

/-- The operations on scalars of a context compute the operations of a field. -/
structure ComputesField (c : Context B) (M : B.Membership) [Field (c.Members M .zr)] : Prop where
  zero : c.Gives .zr Element.setZero (0 : c.Members M .zr).1
  one : c.Gives .zr Element.setOne (1 : c.Members M .zr).1
  add (x y : c.Members M .zr) : c.Gives .zr (Element.combine .add x.1 y.1) (x + y).1
  sub (x y : c.Members M .zr) : c.Gives .zr (Element.combine .sub x.1 y.1) (x - y).1
  mul (x y : c.Members M .zr) : c.Gives .zr (Element.combine .mul x.1 y.1) (x * y).1
  div (x : c.Members M .zr) {y : c.Members M .zr} :
    y ≠ 0 → c.Gives .zr (Element.combine .div x.1 y.1) (x / y).1
  neg (x : c.Members M .zr) : c.Gives .zr (Element.neg x.1) (-x).1
  inv {x : c.Members M .zr} : x ≠ 0 → c.Gives .zr (Element.invert x.1) (x⁻¹).1
  isZero_iff (x : c.Members M .zr) : x.1.isZero = true ↔ x = 0
  isOne_iff (x : c.Members M .zr) : x.1.isOne = true ↔ x = 1

/-- The operations on a group of a context compute the operations of a module over the scalars. The
neutral elements of sum and product are one. -/
structure ComputesModule (c : Context B) (M : B.Membership) (g : Group) [Field (c.Members M .zr)]
    [AddCommGroup (c.Members M g)] [Module (c.Members M .zr) (c.Members M g)] : Prop where
  zero : c.Gives g Element.setZero (0 : c.Members M g).1
  one : c.Gives g Element.setOne (0 : c.Members M g).1
  add (a b : c.Members M g) : c.Gives g (Element.combine .add a.1 b.1) (a + b).1
  sub (a b : c.Members M g) : c.Gives g (Element.combine .sub a.1 b.1) (a - b).1
  neg (a : c.Members M g) : c.Gives g (Element.neg a.1) (-a).1
  smul (x : c.Members M .zr) (a : c.Members M g) : c.Gives g (Element.mulScalar a.1 x.1) (x • a).1
  isZero_iff (a : c.Members M g) : a.1.isZero = true ↔ a = 0

namespace Members

variable (hB : B.ModuleLaws M) (c : Context B)

/-! ## Scalars -/

/-- The scalar as a member of a context. -/
def ofScalar (s : B.Scalar) : c.Members M .zr := ofValue c ⟨s, hB.zr s⟩

theorem exists_ofScalar (x : c.Members M .zr) : ∃ s, x = ofScalar hB c s := by
  obtain ⟨⟨s, hs⟩, h⟩ := exists_ofValue x
  exact ⟨s, h⟩

theorem bijective_ofScalar : Function.Bijective (ofScalar hB c) := by
  constructor
  · intro s t h
    exact congrArg Subtype.val (bijective_ofValue.1 h)
  · intro x
    obtain ⟨s, rfl⟩ := exists_ofScalar hB c x
    exact ⟨s, rfl⟩

/-- The scalars of a context are the residues modulo the group order. -/
noncomputable def scalarEquiv : c.Members M .zr ≃ Fr :=
  (Equiv.ofBijective _ (bijective_ofScalar hB c)).symm.trans
    (Equiv.ofBijective _ hB.scalars.bijective)

theorem scalarEquiv_ofScalar (s : B.Scalar) :
    scalarEquiv hB c (ofScalar hB c s) = B.scalars.residue s :=
  congrArg B.scalars.residue
    (Equiv.ofBijective_symm_apply_apply _ (bijective_ofScalar hB c) s)

/-- The field of residues, carried over to the scalars of a context. -/
noncomputable abbrev field : Field (c.Members M .zr) := (scalarEquiv hB c).field

/-- The field of scalars is that of residues. -/
noncomputable def scalarRingEquiv :
    letI := field hB c
    c.Members M .zr ≃+* Fr :=
  (scalarEquiv hB c).ringEquiv

/-- What gives a scalar with the right residue gives the scalar. -/
theorem gives_scalar {x : c.Members M .zr} {s : B.Scalar} {u : Element.Update B Unit}
    (h : c.Gives .zr u ⟨c, .zr s⟩) (hs : scalarEquiv hB c x = B.scalars.residue s) :
    c.Gives .zr u x.1 := by
  have hx : x = ofScalar hB c s :=
    (scalarEquiv hB c).injective (hs.trans (scalarEquiv_ofScalar hB c s).symm)
  rw [hx]
  exact h

/-- What combines two scalars to one with the right residue gives the scalar. -/
theorem gives_combine {x : c.Members M .zr} {s t u : B.Scalar} {op : BinaryOp}
    (h : Value.combineScalars op s t = .ok u) (hdiv : ¬(op = .div ∧ t = B.scalars.zero))
    (hu : scalarEquiv hB c x = B.scalars.residue u) :
    c.Gives .zr (Element.combine op (ofScalar hB c s).1 (ofScalar hB c t).1) x.1 := by
  refine gives_scalar hB c ((ofScalar hB c s).2.1.gives_combine (ofScalar hB c t).2.1 ?_) hu
  exact (Value.combine_zr hdiv).trans (congrArg (Except.map Value.zr) h)

/-- An operation that is never refused computes what it computes on residues. -/
theorem gives_total {op : BinaryOp} {f : B.Scalar → B.Scalar → B.Scalar}
    {f' : c.Members M .zr → c.Members M .zr → c.Members M .zr} (hop : op ≠ .div)
    (h : ∀ s t, Value.combineScalars op s t = .ok (f s t))
    (hf : ∀ s t, scalarEquiv hB c (f' (ofScalar hB c s) (ofScalar hB c t)) =
      B.scalars.residue (f s t)) (x y : c.Members M .zr) :
    c.Gives .zr (Element.combine op x.1 y.1) (f' x y).1 := by
  obtain ⟨s, rfl⟩ := exists_ofScalar hB c x
  obtain ⟨t, rfl⟩ := exists_ofScalar hB c y
  exact gives_combine hB c (h s t) (fun hdiv ↦ hop hdiv.1) (hf s t)

theorem computesField :
    letI := field hB c
    c.ComputesField M := by
  let := field hB c
  -- Every operation is compared with that of the residues, to which `φ` is an isomorphism.
  let φ := scalarRingEquiv hB c
  have hφ : ∀ s, φ (ofScalar hB c s) = B.scalars.residue s := scalarEquiv_ofScalar hB c
  have hzero : ∀ s, ofScalar hB c s = 0 ↔ B.scalars.residue s = 0 := by
    intro s
    rw [← hφ, EmbeddingLike.map_eq_zero_iff]
  have hone : ∀ s, ofScalar hB c s = 1 ↔ B.scalars.residue s = 1 := by
    intro s
    rw [← hφ, EmbeddingLike.map_eq_one_iff]
  constructor
  case zero => exact gives_scalar hB c gives_setZero ((map_zero φ).trans hB.scalars.zero.symm)
  case one => exact gives_scalar hB c gives_setOne ((map_one φ).trans hB.scalars.one.symm)
  case add =>
    refine gives_total hB c nofun (fun _ _ ↦ rfl) fun s t ↦ ?_
    rw [hB.scalars.add, ← hφ, ← hφ]
    exact map_add φ _ _
  case sub =>
    refine gives_total hB c nofun (fun _ _ ↦ rfl) fun s t ↦ ?_
    rw [hB.scalars.sub, ← hφ, ← hφ]
    exact map_sub φ _ _
  case mul =>
    refine gives_total hB c nofun (fun _ _ ↦ rfl) fun s t ↦ ?_
    rw [hB.scalars.mul, ← hφ, ← hφ]
    exact map_mul φ _ _
  case div =>
    intro x y hy
    obtain ⟨s, rfl⟩ := exists_ofScalar hB c x
    obtain ⟨t, rfl⟩ := exists_ofScalar hB c y
    have ht : B.scalars.residue t ≠ 0 := (hzero t).not.mp hy
    obtain ⟨u, hinv, hu⟩ := hB.scalars.exists_inv? ht
    refine gives_combine hB c (Value.combineScalars_div hinv)
      (fun h ↦ ht (h.2 ▸ hB.scalars.zero)) ?_
    rw [hB.scalars.mul, hu, ← hφ, ← hφ, ← div_eq_mul_inv]
    exact map_div₀ φ _ _
  case neg =>
    intro x
    obtain ⟨s, rfl⟩ := exists_ofScalar hB c x
    refine gives_scalar hB c (ofScalar hB c s).2.1.gives_neg ?_
    rw [hB.scalars.neg, ← hφ]
    exact map_neg φ _
  case inv =>
    intro x hx
    obtain ⟨s, rfl⟩ := exists_ofScalar hB c x
    have hs : B.scalars.residue s ≠ 0 := (hzero s).not.mp hx
    obtain ⟨u, hinv, hu⟩ := hB.scalars.exists_inv? hs
    have hinverse : (Value.zr s).inverse = .ok (.zr u) :=
      Value.inverse_zr (fun h ↦ hs (h ▸ hB.scalars.zero)) hinv
    refine gives_scalar hB c ((ofScalar hB c s).2.1.gives_invert hinverse) ?_
    rw [hu, ← hφ]
    exact map_inv₀ φ _
  case isZero_iff =>
    intro x
    obtain ⟨s, rfl⟩ := exists_ofScalar hB c x
    rw [hzero]
    exact hB.scalars.isZero_iff s
  case isOne_iff =>
    intro x
    obtain ⟨s, rfl⟩ := exists_ofScalar hB c x
    rw [hone, ← hB.scalars.one, hB.scalars.bijective.1.eq_iff]
    exact decide_eq_true_iff

/-! ## The other groups -/

variable (hg : g ≠ .zr)

/-- The group of members, carried over to the elements of a context. -/
noncomputable abbrev addCommGroup : AddCommGroup (c.Members M g) :=
  letI := (hB.isModule hg).group
  (valueEquiv c M g).addCommGroup

/-- The action of the residues on members, carried over to the elements of a context. -/
noncomputable abbrev module :
    letI := field hB c
    letI := addCommGroup hB c hg
    Module (c.Members M .zr) (c.Members M g) :=
  letI := field hB c
  letI := (hB.isModule hg).group
  letI := (hB.isModule hg).module
  letI := (valueEquiv c M g).module Fr
  letI := addCommGroup hB c hg
  Module.compHom (c.Members M g) (scalarRingEquiv hB c).toRingHom

variable {c} in
/-- What gives the value of a member gives the member. -/
theorem gives_value {x : c.Members M g} {p : B.Carrier g} {u : Element.Update B Unit}
    (h : c.Gives g u ⟨c, .of g p⟩) (hp : (valueEquiv c M g x).1 = p) : c.Gives g u x.1 := by
  obtain ⟨q, rfl⟩ := exists_ofValue x
  rw [valueEquiv_ofValue] at hp
  subst hp
  exact h

theorem computesModule :
    letI := field hB c
    letI := addCommGroup hB c hg
    letI := module hB c hg
    c.ComputesModule M g := by
  let := field hB c
  let := (hB.isModule hg).group
  let := (hB.isModule hg).module
  let := addCommGroup hB c hg
  let := module hB c hg
  let ψ : c.Members M g ≃+ {p : B.Carrier g // M.On g p} := (valueEquiv c M g).addEquiv
  have hψ : ∀ p, ψ (ofValue c p) = p := valueEquiv_ofValue
  have hzero : c.Gives g Element.setZero (0 : c.Members M g).1 := by
    refine gives_value (p := (B.operations g).identity) ?_ (congrArg Subtype.val (map_zero ψ))
    rw [← Value.identity_eq_of]
    exact gives_setZero
  constructor
  case zero => exact hzero
  case one =>
    intro e he
    rw [← hzero e he, Element.setOne_result, Element.setZero_result, he.group,
      Value.one_eq_identity hg]
  case add =>
    intro a b
    obtain ⟨p, rfl⟩ := exists_ofValue a
    obtain ⟨q, rfl⟩ := exists_ofValue b
    have hsum : ψ (ofValue c p + ofValue c q) = p + q := by rw [map_add, hψ, hψ]
    exact gives_value ((ofValue c p).2.1.gives_combine (ofValue c q).2.1
      (Value.combine_of hg nofun)) (congrArg Subtype.val hsum)
  case sub =>
    intro a b
    obtain ⟨p, rfl⟩ := exists_ofValue a
    obtain ⟨q, rfl⟩ := exists_ofValue b
    have hdifference : ψ (ofValue c p - ofValue c q) = p + -q := by
      rw [map_sub, hψ, hψ, sub_eq_add_neg]
    refine gives_value ((ofValue c p).2.1.gives_combine (ofValue c q).2.1
      (Value.combine_of hg nofun)) ((congrArg Subtype.val hdifference).trans ?_)
    exact (hB.subtract_eq hg p.2 q.2).symm
  case neg =>
    intro a
    obtain ⟨p, rfl⟩ := exists_ofValue a
    have hnegative : ψ (-ofValue c p) = -p := by rw [map_neg, hψ]
    have hgives : c.Gives g (Element.neg (ofValue c p).1)
        ⟨c, .of g ((B.operations g).inv p.1)⟩ := by
      rw [← Value.negative_of]
      exact (ofValue c p).2.1.gives_neg
    exact gives_value hgives (congrArg Subtype.val hnegative)
  case smul =>
    intro x a
    obtain ⟨k, rfl⟩ := exists_ofScalar hB c x
    obtain ⟨p, rfl⟩ := exists_ofValue a
    have hmultiple : ψ (ofScalar hB c k • ofValue c p) = B.scalars.residue k • p := by
      -- The action on elements is, by definition, that on values along the two bijections.
      show valueEquiv c M g ((valueEquiv c M g).symm
        (scalarEquiv hB c (ofScalar hB c k) • valueEquiv c M g (ofValue c p))) = _
      rw [Equiv.apply_symm_apply, scalarEquiv_ofScalar, valueEquiv_ofValue]
    have hgives : c.Gives g (Element.mulScalar (ofValue c p).1 (ofScalar hB c k).1)
        ⟨c, .of g (B.scale g k p.1)⟩ := by
      rw [← Value.multiple_of]
      exact (ofValue c p).2.1.gives_mulScalar k
    refine gives_value hgives ((congrArg Subtype.val hmultiple).trans ?_)
    rw [(hB.isModule hg).smul_eq_copies, ← hB.scalars.value_eq]
    exact (hB.scale_eq hg k p.2).symm
  case isZero_iff =>
    intro a
    obtain ⟨p, rfl⟩ := exists_ofValue a
    rw [← EmbeddingLike.map_eq_zero_iff (f := ψ), hψ, Subtype.ext_iff]
    exact Value.isIdentity_of

end Members

end Context

/-- Every backend satisfies the module laws. Where they hold, the scalars of a context are a field
and the members of any other group of it are a module over that field, and the operations on
elements compute the operations of field and module; comparison is equality. A multiple is the
neutral element exactly if the scalar is zero or the element is neutral. -/
theorem arithmetic_laws :
    (∀ {B : Backend} {M : B.Membership}, M.Supported → B.ModuleLaws M) ∧
    ∀ {B : Backend} {M : B.Membership}, B.ModuleLaws M → ∀ c : Context B,
      (∀ g (a b : c.Members M g), a.1.equal b.1 = true ↔ a = b) ∧
      ∃ _ : Field (c.Members M .zr), c.ComputesField M ∧
        ∀ g, g ≠ .zr → ∃ (_ : AddCommGroup (c.Members M g))
          (_ : Module (c.Members M .zr) (c.Members M g)), c.ComputesModule M g ∧
            ∀ (x : c.Members M .zr) (a : c.Members M g),
              (x • a).1.isZero = true ↔ x.1.isZero = true ∨ a.1.isZero = true := by
  refine ⟨fun h ↦ h.moduleLaws, fun {B M} hB c ↦ ⟨fun _ ↦ Context.Members.equal_iff, ?_⟩⟩
  let := Context.Members.field hB c
  have hfield : c.ComputesField M := Context.Members.computesField hB c
  refine ⟨_, hfield, fun g hg ↦ ?_⟩
  let := Context.Members.addCommGroup hB c hg
  let := Context.Members.module hB c hg
  have hmodule : c.ComputesModule M g := Context.Members.computesModule hB c hg
  refine ⟨_, _, hmodule, fun x a ↦ ?_⟩
  rw [hmodule.isZero_iff, hfield.isZero_iff, hmodule.isZero_iff, smul_eq_zero]

/-- A third of an element is found by dividing one by three; three times it is the element. -/
theorem arithmetic_laws_third :
    exponentMembership.Supported ∧ exponentModel.ModuleLaws exponentMembership ∧
    ∃ v w, (Element.combine .div (elementOf .zr 1) (elementOf .zr 3)).result (elementOf .zr 0) =
        .ok v ∧
      (Element.mulScalar (elementOf .g1 5) v).result (elementOf .g1 0) = .ok w ∧
      (Element.mulScalar w (elementOf .zr 3)).result (elementOf .g1 0) = .ok (elementOf .g1 5) ∧
      w.isZero = false := by
  have hlaws := arithmetic_laws.1 .exponent
  obtain ⟨-, _, hfield, hgroups⟩ := arithmetic_laws.2 hlaws (.standard exponentModel)
  obtain ⟨_, _, hmodule, hzero⟩ := hgroups .g1 nofun
  let three := ExponentModel.memberOf .zr 3
  let five := ExponentModel.memberOf .g1 5
  have hone : (1 : (Context.standard exponentModel).Members exponentMembership .zr).1 =
      elementOf .zr 1 := hfield.one.unique Context.gives_setOne
  have hthree : three ≠ 0 := mt (hfield.isZero_iff three).mpr
    (show ¬(elementOf .zr 3).isZero = true by decide)
  have hthird : (Element.combine .div (elementOf .zr 1) three.1).result (elementOf .zr 0) =
      .ok (1 / three).1 := by
    rw [← hone]
    exact hfield.div 1 hthree _ (ExponentModel.memberOf .zr 0).2.1
  have hback : three • (1 / three) • five = five := by
    rw [smul_smul, mul_one_div_cancel hthree, one_smul]
  have hwhole := hmodule.smul three ((1 / three) • five) _ (ExponentModel.memberOf .g1 0).2.1
  rw [hback] at hwhole
  refine ⟨.exponent, hlaws, (1 / three).1, ((1 / three) • five).1, hthird,
    hmodule.smul (1 / three) five _ (ExponentModel.memberOf .g1 0).2.1, hwhole, ?_⟩
  rw [← Bool.not_eq_true, hzero, hfield.isZero_iff]
  have hfive : ¬(elementOf .g1 5).isZero = true := by decide
  exact not_or.mpr ⟨one_div_ne_zero hthree, hfive⟩

end BilinearGroups
