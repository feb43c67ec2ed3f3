import BilinearGroups.Proofs.Backend.WideReduction
import BilinearGroups.Proofs.Element.IntegerForm

/-!
# Hashes as integers

A message is hashed to 64 bytes under a domain separation tag, and the integer that these spell,
least significant byte first, is reduced modulo the group order. That is the hash as a scalar, and
in the target group the hash is the generator raised to it.

One way to reduce goes digit by digit and computes the radix in the field, the other reduces the
integer at once. As both give its residue, a message has the same hash over every backend: the same
scalar, and the same exponent in the target group.
-/

namespace BilinearGroups

open Bls12
open Bytes (toNatLE)

namespace Backend.Membership.Supported

variable {B : Backend} {M : B.Membership} (hM : M.Supported)

include hM

/-- Up to 64 bytes are reduced to the residue of the integer that they spell. -/
theorem value_reduceWide {bs : Bytes} (h : bs.length ≤ 64) :
    B.scalars.value (B.scalars.reduceWide bs) = toNatLE bs % groupOrder := by
  have hplain : plainScalars.value (plainScalars.reduceWide bs) = toNatLE bs % groupOrder := by
    rw [plainScalars_value, plainScalars_reduceWide h]
    rfl
  rcases hM with (M | _) | _
  · exact hplain
  · exact residueField_value _ _ (reduceLE bs)
  · exact hplain

theorem value_hash (message tag : Bytes) : B.scalars.value (B.scalars.hash message tag)
    = toNatLE (Blake3.derive tag message) % groupOrder :=
  hM.value_reduceWide (Blake3.length_output_le _ _ _)

/-- The generator of the target group is raised to a scalar by as many copies as its integer says.
It need not be a member for that. -/
theorem scale_generator (k : B.Scalar) : B.target.scale k B.target.generator
    = B.target.operations.copies (B.scalars.value k) B.target.generator := by
  rcases hM with (M | _) | _
  · exact targetGroup_scale_eq plainScalars_value k _
  · exact targetGroup_scale_eq (residueField_value _ _) k _
  · exact ExponentModel.scale_eq_copies k 1

/-- The hash of a message as a scalar and as an element of the target group has the integer of the
derived bytes. -/
theorem setFromHash_result (e : Element B) (message : Bytes) (hg : e.group = .zr ∨ e.group = .gt) :
    ∃ e', (Element.setFromHash message).result e = .ok e' ∧ e'.InGroup e.context e.group ∧
      e'.HasCount (toNatLE (Blake3.derive (Bytes.ofText (e.context.tag e.group)) message)
        % groupOrder) := by
  have hvalue := hM.value_hash message (Bytes.ofText (e.context.tag e.group))
  rw [Element.setFromHash_result]
  obtain hg | hg := hg
  · rw [hg] at hvalue ⊢
    refine ⟨_, rfl, ⟨rfl, rfl⟩, ?_⟩
    rw [← hvalue]
    exact congrArg Value.zr (hM.moduleLaws.scalars.eq_copies_value _)
  · rw [hg] at hvalue ⊢
    refine ⟨_, rfl, ⟨rfl, rfl⟩, ?_⟩
    rw [← hvalue]
    exact congrArg Value.gt (hM.scale_generator _)

end Backend.Membership.Supported

/-- **Wide reduction is exact.** Horner's rule on 64 bytes gives the class of the integer that they
spell, least significant byte first, in every commutative ring where words have their classes, and
its residue in every residue field. Reducing the integer at once gives the same scalar. So over
every backend the hash of a message under a tag is the residue of the derived bytes, as a scalar and
as an exponent in the target group. -/
theorem wide_reduction_exact :
    (∀ {R : Type} [CommRing R] (F : ScalarField R), F.MapsToRing id → ∀ bs : Bytes,
      bs.length = 64 → F.hornerReduce bs = (toNatLE bs : R)) ∧
    (∀ {S : Type} (F : ScalarField S), F.IsResidueField → ∀ bs : Bytes,
      bs.length = 64 → F.value (F.hornerReduce bs) = toNatLE bs % groupOrder) ∧
    (∀ bs : Bytes, bs.length = 64 → (plainScalars.reduceWide bs).val = toNatLE bs % groupOrder ∧
      scaledScalars.reduceWide bs = plainScalars.reduceWide bs) ∧
    ∀ {B : Backend} {M : B.Membership}, M.Supported →
      (∀ message tag : Bytes, B.scalars.value (B.scalars.hash message tag)
        = toNatLE (Blake3.derive tag message) % groupOrder) ∧
      ∀ (e : Element B) (message : Bytes), e.group = .zr ∨ e.group = .gt →
        ∃ e', (Element.setFromHash message).result e = .ok e' ∧
          e'.InGroup e.context e.group ∧
          e'.HasCount (toNatLE (Blake3.derive (Bytes.ofText (e.context.tag e.group)) message)
            % groupOrder) := by
  refine ⟨fun F hF bs h ↦ hF.map_hornerReduce h.le, fun F hF bs h ↦ hF.value_hornerReduce h.le,
    fun bs h ↦ ?_, fun hM ↦ ⟨hM.value_hash, hM.setFromHash_result⟩⟩
  have hreduce := plainScalars_reduceWide h.le
  exact ⟨congrArg Residue.val hreduce, hreduce.symm⟩

/-- The largest 64 bytes are reduced, and one message gets the same exponent in the target groups of
two backends. -/
theorem wide_reduction_exact_largest :
    let largest : Bytes := List.replicate 64 0xff
    (plainScalars.hornerReduce largest = ((256 ^ 64 - 1 : ℕ) : Fr) ∧
      plainScalars.value (plainScalars.hornerReduce largest) = (256 ^ 64 - 1) % groupOrder ∧
      scaledScalars.reduceWide largest = plainScalars.reduceWide largest) ∧
    ∃ (n : ℕ) (e : Element coefficientBackend) (e' : Element exponentModel),
      (Element.setFromHash [1]).result (.fresh (.standard _) .gt) = .ok e ∧ e.HasCount n ∧
      (Element.setFromHash [1]).result (.fresh (.standard _) .gt) = .ok e' ∧ e'.HasCount n := by
  intro largest
  obtain ⟨hring, hfield, hscalars, hhash⟩ := wide_reduction_exact
  have hlength : largest.length = 64 := rfl
  have hinteger : toNatLE largest = 256 ^ 64 - 1 := by decide +kernel
  have hidentity : plainScalars.residue = id := funext plainScalars_residue
  have hplain : plainScalars.MapsToRing id := hidentity ▸ plainScalars_isResidueField.mapsToRing
  let x : Element coefficientBackend := .fresh (.standard _) .gt
  let x' : Element exponentModel := .fresh (.standard _) .gt
  have htag : x.context.tag x.group = Parameters.default.tag .gt := rfl
  have htag' : x'.context.tag x'.group = Parameters.default.tag .gt := rfl
  obtain ⟨e, he, -, hcount⟩ := (hhash (.curves .coefficient)).2 x [1] (.inr rfl)
  obtain ⟨e', he', -, hcount'⟩ := (hhash .exponent).2 x' [1] (.inr rfl)
  rw [htag] at hcount
  rw [htag'] at hcount'
  refine ⟨⟨?_, ?_, (hscalars largest hlength).2⟩, _, e, e', he, hcount, he', hcount'⟩
  · rw [hring plainScalars hplain largest hlength, hinteger]
  · rw [hfield plainScalars plainScalars_isResidueField largest hlength, hinteger]

end BilinearGroups
