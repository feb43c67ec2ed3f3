import BilinearGroups.Proofs.Backend.Readers
import BilinearGroups.Proofs.Element.Derived

/-!
# Backends that stay inside their groups

The exponent model cannot leave its groups, because every exponent belongs to all of them. The
backend with short target encodings stays inside its groups as far as its maps into them do: hashes,
draws and pairings are asked to give members, and everything else is proved. Its readers test
membership, and its sums, multiples and powers are those of groups.

Over both, a member is read back from its encoding.
-/

namespace BilinearGroups

open Bls12

/-- The maps give elements of the groups. -/
structure Torus.Maps.ReturnsMembers (M : Torus.Maps) : Prop where
  hashG1 (message tag : Bytes) : G1.curve.Member (M.hashG1 message tag)
  hashG2 (message tag : Bytes) : G2.curve.Member (M.hashG2 message tag)
  drawG1 {ws rest : Words} {P : Point Fp} : M.drawG1 ws = some (P, rest) → G1.curve.Member P
  drawG2 {ws rest : Words} {Q : Point Fp2} : M.drawG2 ws = some (Q, rest) → G2.curve.Member Q
  drawTarget {ws rest : Words} {f : Fp12} : M.drawTarget ws = some (f, rest) → TargetMember f
  pairing {P : Point Fp} {Q : Point Fp2} :
    G1.curve.Member P → G2.curve.Member Q → TargetMember (M.pairing P Q)
  pairingProduct {Ps : List (Point Fp)} {Qs : List (Point Fp2)} :
    (∀ P ∈ Ps, G1.curve.Member P) → (∀ Q ∈ Qs, G2.curve.Member Q) →
      TargetMember (M.pairingProduct Ps Qs)

/-! ## Closure -/

namespace Bls12

/-- A source group on a curve stays inside the subgroup, if its reader, its hash, its draw and its
multiples do. -/
theorem sourceGroup_closed {F : Type} [Field F] [DecidableEq F] {group : Group} {C : SourceCurve F}
    [Point.SmoothCurve C.b] {hash : Bytes → Bytes → Point F} {report : Report}
    {reader : Bytes → Option (Point F)} {multiple : ℕ → Point F → Point F} {random : Draw (Point F)}
    (hgenerator : C.Member C.generator) (hhash : ∀ message tag, C.Member (hash message tag))
    (hreader : ∀ {bs P}, reader bs = some P → C.Member P)
    (hmultiple : ∀ n {P}, C.Member P → C.Member (multiple n P))
    (hrandom : ∀ {ws rest P}, random ws = some (P, rest) → C.Member P) :
    (sourceGroup group C hash report reader multiple random).Closed C.Member where
  identity := SourceCurve.member_infinity
  generator := hgenerator
  add hp hq := hp.add hq
  sub hp hq := hp.sub hq
  neg hp := hp.neg
  scale k _ hp := hmultiple k.val hp
  hash h := by
    cases h
    exact hhash _ _
  random h := hrandom h
  ofUncompressed h := hreader (sourceGroup_ofUncompressed_iff.mp h).2
  ofCompressed h := SourceCurve.member_of_ofCompressed? (sourceGroup_ofCompressed_iff.mp h).2

/-- A target group stays inside the group, if its generator, its reader and its draw do. -/
theorem targetGroup_closed {generator : Fp12} {length : ℕ} {report : Report}
    {toBytes : Fp12 → Bytes} {reader : Bytes → Option Fp12} {random : Draw Fp12}
    (hgenerator : TargetMember generator)
    (hreader : ∀ {bs f}, reader bs = some f → TargetMember f)
    (hrandom : ∀ {ws rest f}, random ws = some (f, rest) → TargetMember f) :
    (targetGroup generator length report toBytes reader random).Closed TargetMember where
  identity := .one
  generator := hgenerator
  combine hs ht := hs.mul ht
  invert ht := ht.inv
  scale k _ ht := ht.power k.val
  random h := hrandom h
  ofBytes h := hreader (targetGroup_ofBytes_iff.mp h).2

end Bls12

theorem torusMembership_closed {M : Torus.Maps} (hM : M.ReturnsMembers) :
    (torusMembership M).Closed where
  g1 := sourceGroup_closed G1.member_generator hM.hashG1
    SourceCurve.member_of_ofUncompressedAnyForm? (fun n _ hP ↦ hP.multiple n) hM.drawG1
  g2 := sourceGroup_closed G2.member_generator hM.hashG2
    SourceCurve.member_of_ofUncompressedAnyForm? (fun n _ hQ ↦ hQ.multiple n) hM.drawG2
  gt := targetGroup_closed (hM.pairing G1.member_generator G2.member_generator)
    (fun h ↦ (TargetEncoding.ofShort?_eq_some_iff.mp h).2) hM.drawTarget
  zr s := s.isLt
  pairing hP hQ := hM.pairing hP hQ
  pairingProduct h hPs hQs := by
    -- Lists of different lengths are refused before a product is formed.
    change pairingProductOfLists _ _ _ = _ at h
    unfold pairingProductOfLists at h
    split_ifs at h
    cases h
    exact hM.pairingProduct hPs hQs
  toG1 h := by cases h
  toG2 h := by cases h

theorem exponentMembership_closed : exponentMembership.Closed where
  g1 := by constructor <;> intros <;> exact exponentMember _
  g2 := by constructor <;> intros <;> exact exponentMember _
  gt := by constructor <;> intros <;> exact exponentMember _
  zr s := s.isLt
  pairing _ _ := exponentMember _
  pairingProduct _ _ _ := exponentMember _
  toG1 _ _ := exponentMember _
  toG2 _ _ := exponentMember _

/-! ## Reading back -/

/-- Scalars that are written and read as residues are read back. -/
theorem readsBack_of_residues {F : ScalarField Fr}
    (hwrite : ∀ a, F.toBytes a = Bytes.ofNatBE scalarWidth a.val)
    (hread : F.ofBytes = scalarOfBytes) (a : Fr) :
    (F.toBytes a).length = scalarWidth ∧ F.ofBytes (F.toBytes a) = .ok a :=
  (residues_codesExactly hwrite hread exponentMember).readsBack (exponentMember a)

theorem plainScalars_readsBack (a : Fr) : (plainScalars.toBytes a).length = scalarWidth ∧
    plainScalars.ofBytes (plainScalars.toBytes a) = .ok a :=
  readsBack_of_residues (fun _ ↦ rfl) rfl a

theorem scaledScalars_readsBack (a : Fr) : (scaledScalars.toBytes a).length = scalarWidth ∧
    scaledScalars.ofBytes (scaledScalars.toBytes a) = .ok a :=
  readsBack_of_residues (fun _ ↦ rfl) rfl a

theorem torusMembership_readsBack (M : Torus.Maps) : (torusMembership M).ReadsBack where
  g1 h := ⟨SourceCurve.length_toUncompressed _, sourceGroup_ofUncompressed_iff.mpr
    ⟨SourceCurve.length_toUncompressed _,
      SourceCurve.ofUncompressedAnyForm?_eq_some_iff.mpr (.inl ⟨rfl, h⟩)⟩⟩
  g2 h := ⟨SourceCurve.length_toUncompressed _, sourceGroup_ofUncompressed_iff.mpr
    ⟨SourceCurve.length_toUncompressed _,
      SourceCurve.ofUncompressedAnyForm?_eq_some_iff.mpr (.inl ⟨rfl, h⟩)⟩⟩
  gt h := ⟨TargetEncoding.length_toShort h, targetGroup_ofBytes_iff.mpr
    ⟨TargetEncoding.length_toShort h, TargetEncoding.ofShort?_toShort h⟩⟩
  zr _ := plainScalars_readsBack _

theorem coefficientMembership_readsBack : coefficientMembership.ReadsBack where
  g1 h := ⟨SourceCurve.length_toUncompressed _, sourceGroup_ofUncompressed_iff.mpr
    ⟨SourceCurve.length_toUncompressed _, SourceCurve.ofUncompressedByEigenvalue?_eq_some_iff.mpr
      ⟨rfl, h.passesSubgroupTest⟩⟩⟩
  g2 h := ⟨SourceCurve.length_toUncompressed _, sourceGroup_ofUncompressed_iff.mpr
    ⟨SourceCurve.length_toUncompressed _, SourceCurve.ofUncompressedByEigenvalue?_eq_some_iff.mpr
      ⟨rfl, h.passesSubgroupTest⟩⟩⟩
  gt h := ⟨TargetEncoding.length_toFull _, targetGroup_ofBytes_iff.mpr
    ⟨TargetEncoding.length_toFull _, TargetEncoding.ofFull?_eq_some_iff.mpr ⟨rfl, h⟩⟩⟩
  zr _ := scaledScalars_readsBack _

theorem exponentMembership_readsBack : exponentMembership.ReadsBack := by
  have hsource : ∀ a : Fr, (ExponentModel.source.toUncompressed a).length = scalarWidth ∧
      ExponentModel.source.ofUncompressed (ExponentModel.source.toUncompressed a) = .ok a := by
    intro a
    have hread : ExponentModel.source.ofUncompressed = plainScalars.ofBytes := rfl
    have hwrite : ExponentModel.source.toUncompressed = plainScalars.toBytes := rfl
    rw [hread, hwrite]
    exact plainScalars_readsBack a
  have htarget : ∀ a : Fr, (ExponentModel.target.toBytes a).length = scalarWidth ∧
      ExponentModel.target.ofBytes (ExponentModel.target.toBytes a) = .ok a := by
    intro a
    have hread : ExponentModel.target.ofBytes = plainScalars.ofBytes := rfl
    have hwrite : ExponentModel.target.toBytes = plainScalars.toBytes := rfl
    rw [hread, hwrite]
    exact plainScalars_readsBack a
  exact ⟨fun _ ↦ hsource _, fun _ ↦ hsource _, fun _ ↦ htarget _, fun _ ↦ plainScalars_readsBack _⟩

end BilinearGroups
