import BilinearGroups.Proofs.Element.Powers

/-!
# Integers and multiples by integers

A signed word becomes a scalar through its absolute value, which is an unsigned word also where the
word is the smallest one, and a sign. The scalar is the residue of the integer, so its integer is
the remainder by the group order, and a multiple by a negative integer is formed with a large
scalar, `r - n` in the place of `-n`.

Since the order of every element divides `r`, this is as it should be. Sums make every group a
commutative one, the scalars among them, and multiples by integers are those of that group
(`Context.ComputesSums`): sums of as many copies as the integer says, of the element or of its
negative.
-/

namespace BilinearGroups

open Bls12
open ExponentModel (elementOf)

variable {B : Backend} {M : B.Membership} {g : Group}

/-! ## Copies -/

/-- The element becomes the sum of a number of copies of an operand, which are added one after the
other. -/
def Element.addTimes (a : Element B) : ℕ → Element.Update B Unit
  | 0 => setZero
  | n + 1 => do
    addTimes a n
    combineWith .add a

/-! ## Operations on elements -/

section Operations

variable {c : Context B}

theorem Element.InGroup.gives_mulInteger {a : Element B} (ha : a.InGroup c g) (n : Int64) :
    c.Gives g (Element.mulInteger a n) ⟨c, a.value.multiple (B.scalars.ofInt64 n)⟩ := by
  intro e he
  rw [Element.mulInteger_result, he.checkCompatible_eq_ok ha, ← he.withValue_eq]
  rfl

namespace Context

theorem gives_setInteger (n : Int64) :
    c.Gives .zr (Element.setInteger n) ⟨c, .zr (B.scalars.ofInt64 n)⟩ := by
  intro e he
  rw [Element.setInteger_result, if_pos he.group, he.withValue_eq]

/-- The operations on a group of a context compute the sums, differences and multiples by integers
of a commutative group. -/
structure ComputesSums (c : Context B) (M : B.Membership) (g : Group)
    [AddCommGroup (c.Members M g)] : Prop where
  zero : c.Gives g Element.setZero (0 : c.Members M g).1
  add (a b : c.Members M g) : c.Gives g (Element.combine .add a.1 b.1) (a + b).1
  sub (a b : c.Members M g) : c.Gives g (Element.combine .sub a.1 b.1) (a - b).1
  neg (a : c.Members M g) : c.Gives g (Element.neg a.1) (-a).1
  mulInteger (a : c.Members M g) (n : Int64) :
    c.Gives g (Element.mulInteger a.1 n) (n.toInt • a).1

/-- Copies are added to their sum. -/
theorem ComputesSums.addTimes [AddCommGroup (c.Members M g)] (hc : c.ComputesSums M g)
    (a : c.Members M g) (n : ℕ) : c.Gives g (Element.addTimes a.1 n) (n • a).1 := by
  induction n with
  | zero =>
    rw [zero_nsmul]
    exact hc.zero
  | succ n ih =>
    intro e he
    rw [Element.addTimes, Element.Update.result_seq, ih e he]
    show (Element.combineWith .add a.1).result (n • a).1 = _
    rw [Element.combineWith_eq_combine, hc.add (n • a) a _ (n • a).2.1, succ_nsmul]

end Context

end Operations

namespace Context.Members

variable (hB : B.ModuleLaws M) (c : Context B)

include hB

/-- The scalar of a word is the integer of the word. -/
theorem ofScalar_ofInt64 (n : Int64) :
    letI := field hB c
    ofScalar hB c (B.scalars.ofInt64 n) = (n.toInt : c.Members M .zr) := by
  let := field hB c
  apply (scalarRingEquiv hB c).injective
  rw [map_intCast, ← hB.scalars.ofInt64]
  exact scalarEquiv_ofScalar hB c _

/-- The integer of the scalar of a word is the remainder of the word. -/
theorem integer_ofInt64 (n : Int64) :
    ((ofScalar hB c (B.scalars.ofInt64 n)).1.integer : ℤ) = n.toInt % Bls12.groupOrder := by
  rw [integer_eq hB, scalarEquiv_ofScalar, hB.scalars.ofInt64]
  exact Residue.val_intCast n.toInt

/-- In every group the operations are those of a commutative group. -/
theorem exists_computesSums (g : Group) :
    ∃ _ : AddCommGroup (c.Members M g), c.ComputesSums M g := by
  let := field hB c
  have hfield : c.ComputesField M := computesField hB c
  by_cases hg : g = .zr
  · subst hg
    refine ⟨inferInstance, hfield.zero, hfield.add, hfield.sub, hfield.neg, fun a n ↦ ?_⟩
    obtain ⟨s, rfl⟩ := exists_ofScalar hB c a
    -- A multiple of a scalar is a product with the scalar of the integer.
    rw [zsmul_eq_mul, mul_comm, ← ofScalar_ofInt64 hB]
    refine gives_scalar hB c ((ofScalar hB c s).2.1.gives_mulInteger n) ?_
    rw [hB.scalars.mul, ← scalarEquiv_ofScalar hB c, ← scalarEquiv_ofScalar hB c]
    exact map_mul (scalarRingEquiv hB c) _ _
  · let := addCommGroup hB c hg
    let := module hB c hg
    have hmodule : c.ComputesModule M g := computesModule hB c hg
    refine ⟨inferInstance, hmodule.zero, hmodule.add, hmodule.sub, hmodule.neg, fun a n ↦ ?_⟩
    rw [← Int.cast_smul_eq_zsmul (c.Members M .zr), ← ofScalar_ofInt64 hB]
    intro e he
    rw [a.2.1.gives_mulInteger n e he, ← hmodule.smul _ a e he]
    exact (a.2.1.gives_mulScalar _ e he).symm

end Context.Members

/-- On every backend the scalar of a signed word has the remainder of the word as its integer, and
multiples by words are exact in every group: as many copies as the word says, of the element or of
its negative, are added to the neutral element, which is also the multiple by the scalar of the
word. So multiples add up and can be taken one after the other, as long as sum and product of the
words are words again. -/
theorem integer_multiples_exact {M : B.Membership} (hM : M.Supported) (c : Context B) :
    (∀ n : Int64, ∃ z : c.Members M .zr, c.Gives .zr (Element.setInteger n) z.1 ∧
      (z.1.integer : ℤ) = n.toInt % groupOrder) ∧
    ∀ g (a : c.Members M g),
      (∀ n : Int64, ∃ b : c.Members M g, c.Gives g (Element.mulInteger a.1 n) b.1 ∧
        (0 ≤ n.toInt → c.Gives g (Element.addTimes a.1 n.toInt.natAbs) b.1) ∧
        (n.toInt < 0 → ∃ a' : c.Members M g, c.Gives g (Element.neg a.1) a'.1 ∧
          c.Gives g (Element.addTimes a'.1 n.toInt.natAbs) b.1) ∧
        ∃ z : c.Members M .zr, c.Gives .zr (Element.setInteger n) z.1 ∧
          c.Gives g (Element.mulScalar a.1 z.1) b.1) ∧
      ∀ m n : Int64, ∃ am an : c.Members M g,
        c.Gives g (Element.mulInteger a.1 m) am.1 ∧ c.Gives g (Element.mulInteger a.1 n) an.1 ∧
        (∀ k : Int64, k.toInt = m.toInt + n.toInt → ∃ b : c.Members M g,
          c.Gives g (Element.combine .add am.1 an.1) b.1 ∧
          c.Gives g (Element.mulInteger a.1 k) b.1) ∧
        ∀ k : Int64, k.toInt = m.toInt * n.toInt → ∃ b : c.Members M g,
          c.Gives g (Element.mulInteger am.1 n) b.1 ∧
          c.Gives g (Element.mulInteger a.1 k) b.1 := by
  have hB := hM.moduleLaws
  have hinteger (n : Int64) : c.Gives .zr (Element.setInteger n)
      (Context.Members.ofScalar hB c (B.scalars.ofInt64 n)).1 := Context.gives_setInteger n
  constructor
  · intro n
    exact ⟨_, hinteger n, Context.Members.integer_ofInt64 hB c n⟩
  intro g a
  obtain ⟨_, hc⟩ := Context.Members.exists_computesSums hB c g
  constructor
  · intro n
    refine ⟨n.toInt • a, hc.mulInteger a n, ?_, ?_, _, hinteger n, ?_⟩
    · intro hn
      have hcopies : n.toInt • a = n.toInt.natAbs • a := by
        rw [← natCast_zsmul, Int.natAbs_of_nonneg hn]
      rw [hcopies]
      exact hc.addTimes a _
    · intro hn
      have hcopies : n.toInt • a = n.toInt.natAbs • -a := by
        rw [← natCast_zsmul, Int.ofNat_natAbs_of_nonpos hn.le, neg_smul_neg]
      rw [hcopies]
      exact ⟨-a, hc.neg a, hc.addTimes (-a) _⟩
    · -- Both multiples are formed with the scalar of the word.
      rw [← (a.2.1.gives_mulInteger n).unique (hc.mulInteger a n)]
      exact a.2.1.gives_mulScalar _
  · intro m n
    refine ⟨m.toInt • a, n.toInt • a, hc.mulInteger a m, hc.mulInteger a n, ?_, ?_⟩
    · intro k hk
      refine ⟨k.toInt • a, ?_, hc.mulInteger a k⟩
      rw [hk, add_zsmul]
      exact hc.add _ _
    · intro k hk
      refine ⟨k.toInt • a, ?_, hc.mulInteger a k⟩
      rw [hk, mul_comm, mul_zsmul]
      exact hc.mulInteger _ n

/-- The smallest word has no negative among the words. Its scalar lies `2 ^ 63` below the group
order, and the multiple by it is a sum of `2 ^ 63` negatives, to which one copy can be added back. -/
theorem integer_multiples_exact_minValue : exponentMembership.Supported ∧
    (∃ z, (Element.setInteger Int64.minValue).result (elementOf .zr 0) = .ok z ∧
      (z.integer : ℤ) = groupOrder - 2 ^ 63) ∧
    (∃ a' b, (Element.neg (elementOf .g1 3)).result (elementOf .g1 0) = .ok a' ∧
      (Element.addTimes a' (2 ^ 63)).result (elementOf .g1 0) = .ok b ∧
      (Element.mulInteger (elementOf .g1 3) Int64.minValue).result (elementOf .g1 0) = .ok b) ∧
    ∃ am an b, (Element.mulInteger (elementOf .g1 3) Int64.minValue).result (elementOf .g1 0) =
        .ok am ∧
      (Element.mulInteger (elementOf .g1 3) 1).result (elementOf .g1 0) = .ok an ∧
      (Element.combine .add am an).result (elementOf .g1 0) = .ok b ∧
      (Element.mulInteger (elementOf .g1 3) (-9223372036854775807)).result (elementOf .g1 0) =
        .ok b := by
  obtain ⟨hinteger, hmultiples⟩ := integer_multiples_exact .exponent (.standard exponentModel)
  obtain ⟨hcopies, hlaws⟩ := hmultiples .g1 (ExponentModel.memberOf .g1 3)
  have hscalar := (ExponentModel.memberOf .zr 0).2.1
  have hpoint := (ExponentModel.memberOf .g1 0).2.1
  refine ⟨.exponent, ?_, ?_, ?_⟩
  · obtain ⟨z, hz, hvalue⟩ := hinteger Int64.minValue
    exact ⟨z.1, hz _ hscalar, hvalue.trans (by decide)⟩
  · obtain ⟨b, hb, -, hnegative, -⟩ := hcopies Int64.minValue
    obtain ⟨a', ha', hsum⟩ := hnegative (by decide)
    exact ⟨a'.1, b.1, ha' _ hpoint, hsum _ hpoint, hb _ hpoint⟩
  · obtain ⟨am, an, ham, han, hadd, -⟩ := hlaws Int64.minValue 1
    obtain ⟨b, hsum, hb⟩ := hadd (-9223372036854775807) (by decide)
    exact ⟨am.1, an.1, b.1, ham _ hpoint, han _ hpoint, hsum _ hpoint, hb _ hpoint⟩

end BilinearGroups
