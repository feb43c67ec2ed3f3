import BilinearGroups.Proofs.Backend.ModuleLaws
import BilinearGroups.Proofs.Backend.Sampling
import BilinearGroups.Proofs.Element.Members
import BilinearGroups.Proofs.Pairing.TargetGenerator

/-!
# Elements drawn by their exponents

Scalars are drawn by rejection, and some groups are drawn from by raising the generator to a scalar
that is drawn. What is drawn then depends on one block of four words only, the first that is
accepted. As the generator has the order of the scalars, exponents and members correspond, and every
member comes from the same number of blocks: the draw is not biased.

Where scalars are drawn as their multiples by `2 ^ 256`, every exponent is multiplied by one unit,
which permutes the exponents.
-/

namespace BilinearGroups

open Bls12

/-! ## Groups that are drawn from by exponents -/

/-- A draw from the group draws the exponent of a member, up to a unit, as the integer of a
block. -/
structure Backend.DrawsExponents {B : Backend} (M : B.Membership) (g : Group) (unit : Fr) :
    Prop where
  ne_zero : unit ≠ 0
  cyclic : (B.operations g).IsCyclic (M.On g)
  random : (Value.random g).FromBlock fun n ↦ Value.of g ((B.operations g).element (n * unit))

/-- The groups that are drawn from by exponents, with the unit. -/
inductive Backend.Membership.DrawsScalars : {B : Backend} → B.Membership → Group → Fr → Prop
  /-- Scalars are drawn as they are. -/
  | torus (M : Torus.Maps) : DrawsScalars (torusMembership M) .zr 1
  /-- Scalars are drawn by their multiples. -/
  | scaled : DrawsScalars coefficientMembership .zr scaledOne
  /-- Powers of the generator are drawn by scalars, which are drawn by their multiples. -/
  | powers : DrawsScalars coefficientMembership .gt scaledOne
  /-- In the exponent model all groups are the scalars. -/
  | exponents (g : Group) : DrawsScalars exponentMembership g 1

theorem Bls12.scaledOne_ne_zero : scaledOne ≠ 0 := inv_ne_zero (by decide)

namespace Bls12

variable {generator : Fp12} {length : ℕ} {report : Report} {toBytes : Fp12 → Bytes}
variable {reader : Bytes → Option Fp12} {random : Draw Fp12}

theorem targetGroup_element (x : Fr) :
    (targetGroup generator length report toBytes reader random).operations.element x
      = power generator x.val :=
  targetGroup_copies_eq x.val generator

/-- With a generator of order `r` the target group is cyclic. -/
theorem targetGroup_isCyclic (hgenerator : orderOf generator = groupOrder) :
    (targetGroup generator length report toBytes reader random).operations.IsCyclic
      TargetMember := by
  have hmodule : (targetGroup generator length report toBytes reader random).operations.IsModule
    TargetMember := targetGroup_isModule
  have hmember : TargetMember generator := by
    rw [targetMember_iff, ← hgenerator, pow_orderOf_eq_one]
  refine ⟨hmodule.identity, hmember, hmodule.op, hmodule.inv, hmodule.op_assoc,
    hmodule.identity_op, hmodule.inv_op, fun hf ↦ ?_, fun n ↦ ?_⟩
  · obtain ⟨n, hn⟩ := hf.exists_power hgenerator
    exact ⟨n, (targetGroup_copies_eq n _).trans hn⟩
  · rw [targetGroup_copies_eq, power_eq_pow, ← hgenerator]
    exact orderOf_dvd_iff_pow_eq_one.symm

end Bls12

namespace Backend.Membership.DrawsScalars

variable {B : Backend} {M : B.Membership} {g : Group} {unit : Fr}

theorem drawsExponents (hM : M.DrawsScalars g unit) : B.DrawsExponents M g unit := by
  have hone (n : ℕ) : (n : Fr) = ExponentModel.addition.element ((n : Fr) * 1) := by
    rw [ExponentModel.element_addition, mul_one]
  cases hM with
  | torus M => exact {
      ne_zero := one_ne_zero
      cyclic := ExponentModel.addition_isCyclic fun s ↦ s.isLt
      random := drawScalar_fromBlock.map (Value.zr (B := torusBackendOver M)) fun n ↦
        congrArg Value.zr (hone n) }
  | scaled => exact {
      ne_zero := scaledOne_ne_zero
      cyclic := ExponentModel.addition_isCyclic fun s ↦ s.isLt
      random := drawScaledScalar_fromBlock.map (Value.zr (B := coefficientBackend)) fun n ↦
        congrArg Value.zr (ExponentModel.element_addition _).symm }
  | powers => exact {
      ne_zero := scaledOne_ne_zero
      cyclic := targetGroup_isCyclic orderOf_targetGenerator
      random := (drawScaledScalar_fromBlock.map (power targetGenerator ·.val) fun _ ↦ rfl).map
        (Value.gt (B := coefficientBackend)) fun n ↦
          congrArg Value.gt (targetGroup_element _).symm }
  | exponents g => exact {
      ne_zero := one_ne_zero
      cyclic := by
        cases g <;> exact ExponentModel.addition_isCyclic fun a ↦ exponentMembership_holds _
      random := by
        cases g with
        | g1 => exact drawScalar_fromBlock.map (Value.g1 (B := exponentModel)) fun n ↦
            congrArg Value.g1 (hone n)
        | g2 => exact drawScalar_fromBlock.map (Value.g2 (B := exponentModel)) fun n ↦
            congrArg Value.g2 (hone n)
        | gt => exact drawScalar_fromBlock.map (Value.gt (B := exponentModel)) fun n ↦
            congrArg Value.gt (hone n)
        | zr => exact drawScalar_fromBlock.map (Value.zr (B := exponentModel)) fun n ↦
            congrArg Value.zr (hone n) }

end Backend.Membership.DrawsScalars

/-! ## What is drawn -/

/-- The value that is drawn with a block: the member of the group with the exponent that the block
gives. -/
def Value.drawn {B : Backend} (g : Group) (unit : Fr) (b : Limbs) : Value B :=
  .of g ((B.operations g).element (b.low * unit))

namespace Backend.DrawsExponents

variable {B : Backend} {M : B.Membership} {g : Group} {unit : Fr} {e : Element B}
variable {ws rest : Words} {rejected : List Limbs} {first : Limbs}
variable (h : B.DrawsExponents M g unit)

include h

theorem setRandom_run (he : e.group = g) (hws : ws.FirstAccepted rejected first rest) :
    (Element.setRandom ws).run e = .ok rest (e.withValue (.drawn g unit first)) := by
  rw [Element.setRandom_run, he, h.random.accepted hws]
  rfl

theorem setRandom_run_exhausted (he : e.group = g) (hws : ∀ b ∈ ws.blocks, ¬b.Accepted) :
    (Element.setRandom ws).run e = .error .exhausted e := by
  rw [Element.setRandom_run, he, h.random.exhausted hws]
  rfl

theorem holds_drawn (b : Limbs) : M.Holds (.drawn g unit b) := h.cyclic.member_element _

/-- The blocks that give a member are a block and the one with the other top bit. -/
theorem exists_blocks_eq {v : Value B} (hgroup : v.group = g) (hv : M.Holds v) :
    ∃ c : Limbs, {b | b.Accepted ∧ Value.drawn g unit b = v} = {c, c.flipTop} := by
  obtain ⟨p, rfl⟩ := Value.exists_of hgroup
  obtain ⟨x, rfl⟩ := h.cyclic.exists_element hv
  -- The block of the exponent without the unit.
  let n := (x * unit⁻¹).val
  have hn : n < groupOrder := (x * unit⁻¹).isLt
  refine ⟨.ofNat n, Set.ext fun b ↦ ?_⟩
  calc b.Accepted ∧ Value.drawn g unit b = Value.of g ((B.operations g).element x)
      ↔ b.low < groupOrder ∧ (b.low : Fr) * unit = x :=
        and_congr_right fun _ ↦ Value.of_injective.eq_iff.trans h.cyclic.element_injective.eq_iff
    _ ↔ b.low < groupOrder ∧ (b.low : Fr) = x * unit⁻¹ :=
        and_congr_right fun _ ↦ (eq_mul_inv_iff_mul_eq₀ h.ne_zero).symm
    _ ↔ b.low = n := by
        constructor
        · rintro ⟨hlow, heq⟩
          exact (Nat.mod_eq_of_lt hlow).symm.trans (congrArg Residue.val heq)
        · intro heq
          rw [heq]
          exact ⟨hn, Residue.natCast_val _⟩
    _ ↔ b = .ofNat n ∨ b = (Limbs.ofNat n).flipTop := by
        rw [← Limbs.low_eq_low_iff, Limbs.low_ofNat (hn.trans (by decide))]

end Backend.DrawsExponents

/-- **Draws by exponents are not biased.** A supply in which some block of four words is accepted
has a first such block. What is drawn is a member of the group and depends on that block alone; the
words of the blocks up to it are taken, four for each, and the others are left. Every member of the
group is drawn with exactly two blocks, which differ in the top bit. A supply in which no block is
accepted runs out, and the element stays as it was. -/
theorem scalar_draws_unbiased {B : Backend} {M : B.Membership} {g : Group} {unit : Fr}
    (hM : M.DrawsScalars g unit) :
    (∀ ws : Words, (∃ b ∈ ws.blocks, b.Accepted) →
      ∃ rejected first rest, ws.FirstAccepted rejected first rest) ∧
    (∀ (e : Element B) (ws : Words) (rejected : List Limbs) (first : Limbs) (rest : Words),
      e.group = g → ws.FirstAccepted rejected first rest →
        ws.length = 4 * (rejected.length + 1) + rest.length ∧
        (Element.setRandom ws).run e = .ok rest (e.withValue (.drawn g unit first))) ∧
    (∀ (e : Element B) (ws : Words), e.group = g → (∀ b ∈ ws.blocks, ¬b.Accepted) →
      (Element.setRandom ws).run e = .error .exhausted e) ∧
    (∀ b, (Value.drawn g unit b : Value B).group = g ∧ M.Holds (.drawn g unit b)) ∧
    ∀ v : Value B, v.group = g → M.Holds v →
      {b | b.Accepted ∧ Value.drawn g unit b = v}.ncard = 2 ∧
      ∃ c : Limbs, {b | b.Accepted ∧ Value.drawn g unit b = v} = {c, c.flipTop} := by
  have h := hM.drawsExponents
  refine ⟨Words.exists_firstAccepted, fun e ws rejected first rest he hws ↦ ?_,
    fun e ws he hws ↦ h.setRandom_run_exhausted he hws,
    fun b ↦ ⟨Value.group_of _, h.holds_drawn b⟩, fun v hgroup hv ↦ ?_⟩
  · exact ⟨hws.length_eq, h.setRandom_run he hws⟩
  · obtain ⟨c, hc⟩ := h.exists_blocks_eq hgroup hv
    refine ⟨?_, c, hc⟩
    rw [hc, Set.ncard_pair c.flipTop_ne.symm]

/-- A block of ones is rejected, and the next one gives a power of the generator of the target
group. Two blocks give the generator, and a supply of three words is too short. -/
theorem scalar_draws_unbiased_powers :
    let e := Element.fresh (Context.standard coefficientBackend) .gt
    let ones : Limbs := ⟨-1, -1, -1, -1⟩
    let first : Limbs := ⟨5, 0, 0, 0x8000000000000000⟩
    ¬ones.Accepted ∧ first.low = 5 ∧
    (Element.setRandom (ones.toList ++ first.toList ++ [7])).run e
      = .ok [7] (e.withValue (.drawn .gt scaledOne first)) ∧
    (Element.setRandom [1, 2, 3]).run e = .error .exhausted e ∧
    {b | b.Accepted ∧ Value.drawn .gt scaledOne b = Value.gt (B := coefficientBackend)
      targetGenerator}.ncard = 2 := by
  intro e ones first
  obtain ⟨-, hfirst, hnone, -, hcount⟩ := scalar_draws_unbiased .powers
  have hones : ¬ones.Accepted := by decide
  have hsupply : Words.FirstAccepted (ones.toList ++ first.toList ++ [7]) [ones] first [7] :=
    ⟨rfl, by simpa using hones, by decide⟩
  exact ⟨hones, by decide, (hfirst e _ _ _ _ rfl hsupply).2, hnone e _ rfl nofun,
    (hcount (.gt targetGenerator) rfl targetMember_targetGenerator).1⟩

end BilinearGroups
