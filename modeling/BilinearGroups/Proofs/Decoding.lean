import BilinearGroups.Proofs.Backend.Readers

/-!
# What bytes are decoded to

Decoding is asked two questions. Does the value belong to its group? And is the string that was
decoded the one that the value is written as?

For points, the backend with short target encodings tests the equation of the curve and the order,
and everything it decodes belongs to its group; but it also takes a compressed form in the first
half of a full one, and ignores the second half. The backend with full target encodings accepts
written forms only; but it asks a pair for the eigenvalue alone. On the curve that is enough, and
off the curve it is not: what it accepts beyond the members are the pairs that lie off the curve
and pass the test all the same.
-/

namespace BilinearGroups

open Bls12

/-! ## Membership -/

/-- The bytes are the full form of a pair that lies off the curve and passes the eigenvalue test. -/
def Bls12.SourceCurve.SpellsStray {F : Type} [DecidableEq F] [Zero F] [Add F] [Sub F] [Neg F]
    [Mul F] [Inv F] (C : SourceCurve F) (bs : Bytes) : Prop :=
  ∃ P, bs = C.toUncompressed P ∧ ¬ P.OnCurve C.b ∧ C.eigenTest P = true

namespace Bls12.SourceCurve

variable {F : Type} [DecidableEq F] [Zero F] [Add F] [Sub F] [Neg F] [Mul F] [Inv F]
variable {C : SourceCurve F} [hC : C.LawfulCoordinates]

/-- What a reader by eigenvalue accepts is a member, unless it is the form of a stray pair. -/
theorem member_iff_of_ofUncompressedByEigenvalue? {bs : Bytes} {P : Point F}
    (h : C.ofUncompressedByEigenvalue? bs = some P) : C.Member P ↔ ¬ C.SpellsStray bs := by
  obtain ⟨rfl, htest⟩ := ofUncompressedByEigenvalue?_eq_some_iff.mp h
  rw [passesSubgroupTest] at htest
  split_ifs at htest with hcurve
  · refine iff_of_true ⟨hcurve, of_decide_eq_true htest⟩ ?_
    rintro ⟨Q, hQ, hstray, -⟩
    rw [toUncompressed_injective hQ] at hcurve
    exact hstray hcurve
  · exact iff_of_false (fun hmember ↦ hcurve hmember.1) (not_not.mpr ⟨P, rfl, hcurve, htest⟩)

theorem SpellsStray.read {bs : Bytes} (h : C.SpellsStray bs) :
    bs.length = C.uncompressedLength ∧
      ∃ P, C.ofUncompressedByEigenvalue? bs = some P ∧ ¬ C.Member P := by
  obtain ⟨P, rfl, hcurve, htest⟩ := h
  refine ⟨length_toUncompressed P, P, ofUncompressedByEigenvalue?_eq_some_iff.mpr ⟨rfl, ?_⟩,
    fun hP ↦ hcurve hP.1⟩
  rw [passesSubgroupTest, if_neg hcurve]
  exact htest

end Bls12.SourceCurve

/-- The bytes are the full form of a stray pair for a source group. -/
def SpellsStray (bs : Bytes) : Group → Prop
  | .g1 => G1.curve.SpellsStray bs
  | .g2 => G2.curve.SpellsStray bs
  | .gt | .zr => False

/-- On either curve backend, what a full form of a point is decoded to belongs to its group, with
one exception: the backend that goes by eigenvalues also accepts the full forms of stray pairs. On
the curve, the eigenvalue decides nothing wrongly. -/
theorem decoded_point_member_iff (bs : Bytes) :
    (∀ v : Value torusBackend, v.IsPoint → v.DecodedFrom bs →
      (torusMembership Torus.maps).Holds v) ∧
    (∀ v : Value coefficientBackend, v.IsPoint → v.DecodedFrom bs →
      (coefficientMembership.Holds v ↔ ¬ SpellsStray bs v.group)) ∧
    (∀ (g : Group) (c : Context coefficientBackend), SpellsStray bs g →
      ∃ e, Element.ofBytes c g bs = .ok e ∧ ¬ coefficientMembership.Holds e.value) ∧
    (∀ P : Point Fp, P.OnCurve G1.curve.b → G1.eigenTest P = true → G1.curve.Member P) ∧
    (∀ Q : Point Fp2, Q.OnCurve G2.curve.b → G2.eigenTest Q = true → G2.curve.Member Q) := by
  refine ⟨?_, ?_, ?_, fun _ ↦ G1.member_of_eigenTest, fun _ ↦ G2.member_of_eigenTest⟩
  · intro v hv h
    have hread := h.ofBytes_eq
    cases v with
    | g1 P =>
      obtain ⟨_, hP, ⟨⟩⟩ := exists_of_map_eq_ok hread
      exact SourceCurve.member_of_ofUncompressedAnyForm? (sourceGroup_ofUncompressed_iff.mp hP).2
    | g2 Q =>
      obtain ⟨_, hQ, ⟨⟩⟩ := exists_of_map_eq_ok hread
      exact SourceCurve.member_of_ofUncompressedAnyForm? (sourceGroup_ofUncompressed_iff.mp hQ).2
    | gt t => cases hv
    | zr s => cases hv
  · intro v hv h
    have hread := h.ofBytes_eq
    cases v with
    | g1 P =>
      obtain ⟨_, hP, ⟨⟩⟩ := exists_of_map_eq_ok hread
      exact SourceCurve.member_iff_of_ofUncompressedByEigenvalue?
        (sourceGroup_ofUncompressed_iff.mp hP).2
    | g2 Q =>
      obtain ⟨_, hQ, ⟨⟩⟩ := exists_of_map_eq_ok hread
      exact SourceCurve.member_iff_of_ofUncompressedByEigenvalue?
        (sourceGroup_ofUncompressed_iff.mp hQ).2
    | gt t => cases hv
    | zr s => cases hv
  · intro g c h
    cases g with
    | g1 =>
      obtain ⟨hlength, P, hP, hmember⟩ := SourceCurve.SpellsStray.read h
      have hread : coefficientBackend.g1.ofUncompressed bs = .ok P :=
        sourceGroup_ofUncompressed_iff.mpr ⟨hlength, hP⟩
      refine ⟨⟨c, .g1 P⟩, Element.ofBytes_eq_ok_iff.mpr ⟨rfl, hlength, ?_⟩, hmember⟩
      rw [Value.ofBytes, hread]
      rfl
    | g2 =>
      obtain ⟨hlength, Q, hQ, hmember⟩ := SourceCurve.SpellsStray.read h
      have hread : coefficientBackend.g2.ofUncompressed bs = .ok Q :=
        sourceGroup_ofUncompressed_iff.mpr ⟨hlength, hQ⟩
      refine ⟨⟨c, .g2 Q⟩, Element.ofBytes_eq_ok_iff.mpr ⟨rfl, hlength, ?_⟩, hmember⟩
      rw [Value.ofBytes, hread]
      rfl
    | gt => cases h
    | zr => cases h

/-- A pair that lies on another curve of the family and passes the eigenvalue test. -/
def strayPair : Point Fp :=
  .affine
    ⟨0x0f9bc0aa72cc2ad06f2f59621f8131ba2a83ccf3dadb72160cffe86b91cf7ed66712311e33c0037321d8bc3c63ecfa1a,
      by decide⟩
    ⟨0x19cbb0798d334153c3623a4c1fde98f15ab521158bd5e1e57b6d90fbcd351d7d29fda2c434365d81838be6b86b40370e,
      by decide⟩

theorem eigenTest_strayPair : G1.curve.eigenTest strayPair = true := by decide +kernel

theorem not_onCurve_strayPair : ¬ strayPair.OnCurve G1.curve.b := by decide

theorem decoded_point_member_iff_generator :
    (torusMembership Torus.maps).Holds (.g1 G1.generator) ∧
      (coefficientMembership.Holds (.g1 G1.generator) ↔
        ¬ SpellsStray (G1.curve.toUncompressed G1.generator) .g1) ∧
      (∃ e, Element.ofBytes (.standard _) .g1
          (G1.curve.toUncompressed strayPair) = .ok e ∧ ¬ coefficientMembership.Holds e.value) ∧
      G1.curve.Member G1.generator ∧ G2.curve.Member G2.generator := by
  have hmember : G1.curve.Member G1.generator := G1.member_generator
  obtain ⟨htorus, hcoefficient, -, hG1, hG2⟩ :=
    decoded_point_member_iff (G1.curve.toUncompressed G1.generator)
  obtain ⟨-, -, hstray, -⟩ := decoded_point_member_iff (G1.curve.toUncompressed strayPair)
  refine ⟨htorus (.g1 G1.generator) trivial (.readG1 ?_),
    hcoefficient (.g1 G1.generator) trivial (.readG1 ?_),
    hstray .g1 (.standard _) ⟨strayPair, rfl, not_onCurve_strayPair, eigenTest_strayPair⟩,
    hG1 G1.generator hmember.1 G1.eigenTest_generator,
    hG2 G2.generator G2.member_generator.1 G2.eigenTest_generator⟩
  · exact sourceGroup_ofUncompressed_iff.mpr ⟨SourceCurve.length_toUncompressed _,
      SourceCurve.ofUncompressedAnyForm?_eq_some_iff.mpr (.inl ⟨rfl, hmember⟩)⟩
  · refine sourceGroup_ofUncompressed_iff.mpr ⟨SourceCurve.length_toUncompressed _,
      SourceCurve.ofUncompressedByEigenvalue?_eq_some_iff.mpr ⟨rfl, ?_⟩⟩
    rw [SourceCurve.passesSubgroupTest, if_pos hmember.1, hmember.2]
    rfl

/-- Not every decoded point belongs to its group. -/
theorem exists_decoded_point_off_curve :
    ¬ ∀ (bs : Bytes) (v : Value coefficientBackend), v.IsPoint → v.DecodedFrom bs →
      coefficientMembership.Holds v := by
  intro h
  have htest : G1.curve.passesSubgroupTest strayPair = true := by
    rw [SourceCurve.passesSubgroupTest, if_neg not_onCurve_strayPair]
    exact eigenTest_strayPair
  have hread : coefficientBackend.g1.ofUncompressed (G1.curve.toUncompressed strayPair)
      = .ok strayPair :=
    sourceGroup_ofUncompressed_iff.mpr ⟨SourceCurve.length_toUncompressed _,
      SourceCurve.ofUncompressedByEigenvalue?_eq_some_iff.mpr ⟨rfl, htest⟩⟩
  exact not_onCurve_strayPair (h _ (.g1 strayPair) trivial (.readG1 hread)).1

/-! ## Canonical encodings -/

namespace Bls12.SourceCurve

variable {F : Type} [DecidableEq F] [Zero F] [Add F] [Sub F] [Neg F] [Mul F] [Inv F]
variable {C : SourceCurve F} [hC : C.LawfulCoordinates] {bs bs' : Bytes} {P : Point F}

/-- A point that is read from a full form is written as that form, unless the form is flagged. -/
theorem toUncompressed_eq_iff (h : C.ofUncompressedAnyForm? bs = some P) :
    C.toUncompressed P = bs ↔ isFlagged bs = false := by
  rcases ofUncompressedAnyForm?_eq_some_iff.mp h with ⟨rfl, -⟩ | ⟨hflag, -, -⟩
  · exact iff_of_true rfl (isFlagged_toUncompressed P)
  · refine iff_of_false ?_ (ne_false_of_eq_true hflag)
    rintro rfl
    exact absurd hflag (ne_true_of_eq_false (isFlagged_toUncompressed P))

omit [Zero F] in
/-- Of a flagged form only the first half is read. -/
theorem ofUncompressedAnyForm?_congr (hflag : isFlagged bs = true)
    (hlength : bs.length = bs'.length)
    (hhalf : bs.take (bs.length / 2) = bs'.take (bs.length / 2)) :
    C.ofUncompressedAnyForm? bs = C.ofUncompressedAnyForm? bs' := by
  have hpos := hC.width_pos
  match bs, bs' with
  | [], _ => cases hflag
  | _ :: _, [] => cases hlength
  | b :: bs, b' :: bs' =>
    have hlength' : bs.length + 1 = bs'.length + 1 := hlength
    rw [ofUncompressedAnyForm?, ofUncompressedAnyForm?, hlength']
    by_cases hfull : bs'.length + 1 = C.uncompressedLength
    swap
    · rw [if_pos hfull, if_pos hfull]
    have hwidth : (b :: bs).length / 2 = C.width := by
      rw [hlength, List.length_cons, hfull, uncompressedLength]
      omega
    rw [hwidth] at hhalf
    have hhead : b = b' := by
      obtain ⟨k, hk⟩ : ∃ k, C.width = k + 1 := Nat.exists_eq_succ_of_ne_zero hpos.ne'
      rw [hk] at hhalf
      exact (List.cons.inj hhalf).1
    have hflagged : hasFlag b compressedFlag = true := hflag
    rw [if_neg (not_not.mpr hfull), if_neg (not_not.mpr hfull), hhalf, ← hhead, if_pos hflagged,
      if_pos hflagged]

end Bls12.SourceCurve

theorem coefficient_toBytes_of_ofBytes {bs : Bytes} {g : Group} {v : Value coefficientBackend}
    (h : Value.ofBytes bs g = .ok v) : v.toBytes = bs := by
  cases g with
  | g1 =>
    obtain ⟨P, hP, rfl⟩ := exists_of_map_eq_ok h
    have hread := (sourceGroup_ofUncompressed_iff.mp hP).2
    exact (SourceCurve.ofUncompressedByEigenvalue?_eq_some_iff.mp hread).1.symm
  | g2 =>
    obtain ⟨Q, hQ, rfl⟩ := exists_of_map_eq_ok h
    have hread := (sourceGroup_ofUncompressed_iff.mp hQ).2
    exact (SourceCurve.ofUncompressedByEigenvalue?_eq_some_iff.mp hread).1.symm
  | gt =>
    obtain ⟨f, hf, rfl⟩ := exists_of_map_eq_ok h
    have hread := (targetGroup_ofBytes_iff.mp hf).2
    exact (TargetEncoding.ofFull?_eq_some_iff.mp hread).1.symm
  | zr =>
    obtain ⟨a, ha, rfl⟩ := exists_of_map_eq_ok h
    exact (scalarOfBytes_eq_ok_iff.mp ha).symm

theorem exponent_toBytes_of_ofBytes {bs : Bytes} {g : Group} {v : Value exponentModel}
    (h : Value.ofBytes bs g = .ok v) : v.toBytes = bs := by
  cases g <;>
    · obtain ⟨a, ha, rfl⟩ := exists_of_map_eq_ok h
      exact (scalarOfBytes_eq_ok_iff.mp ha).symm

theorem torus_toBytes_eq_iff {M : Torus.Maps} {bs : Bytes} {g : Group}
    {v : Value (torusBackendOver M)} (h : Value.ofBytes bs g = .ok v) :
    v.toBytes = bs ↔ ¬ ((g = .g1 ∨ g = .g2) ∧ isFlagged bs = true) := by
  cases g with
  | g1 =>
    obtain ⟨P, hP, rfl⟩ := exists_of_map_eq_ok h
    have hread := (sourceGroup_ofUncompressed_iff.mp hP).2
    exact (SourceCurve.toUncompressed_eq_iff hread).trans (by simp)
  | g2 =>
    obtain ⟨Q, hQ, rfl⟩ := exists_of_map_eq_ok h
    have hread := (sourceGroup_ofUncompressed_iff.mp hQ).2
    exact (SourceCurve.toUncompressed_eq_iff hread).trans (by simp)
  | gt =>
    obtain ⟨f, hf, rfl⟩ := exists_of_map_eq_ok h
    have hread := (targetGroup_ofBytes_iff.mp hf).2
    exact iff_of_true (TargetEncoding.ofShort?_eq_some_iff.mp hread).1.symm (by simp)
  | zr =>
    obtain ⟨a, ha, rfl⟩ := exists_of_map_eq_ok h
    exact iff_of_true (scalarOfBytes_eq_ok_iff.mp ha).symm (by simp)

/-- What is decoded is written as the string that it was decoded from, so that no other string is
decoded to it. There is one exception: flagged full forms on the backend with short target
encodings, whose second half is not looked at. -/
theorem decoded_toBytes_eq_iff (g : Group) (bs : Bytes) :
    (∀ (c : Context coefficientBackend) (e : Element coefficientBackend),
      Element.ofBytes c g bs = .ok e →
        e.toBytes = bs ∧ ∀ bs', Element.ofBytes c g bs' = .ok e → bs' = bs) ∧
    (∀ (c : Context exponentModel) (e : Element exponentModel),
      Element.ofBytes c g bs = .ok e →
        e.toBytes = bs ∧ ∀ bs', Element.ofBytes c g bs' = .ok e → bs' = bs) ∧
    (∀ (c : Context torusBackend) (e : Element torusBackend),
      Element.ofBytes c g bs = .ok e →
        (e.toBytes = bs ↔ ¬ ((g = .g1 ∨ g = .g2) ∧ isFlagged bs = true))) ∧
    (∀ (c : Context torusBackend) (bs' : Bytes), (g = .g1 ∨ g = .g2) →
      isFlagged bs = true → bs.length = bs'.length →
        bs.take (bs.length / 2) = bs'.take (bs.length / 2) →
          Element.ofBytes c g bs = Element.ofBytes c g bs') := by
  refine ⟨?_, ?_, ?_, ?_⟩
  · intro c e h
    have hbs := coefficient_toBytes_of_ofBytes (Element.ofBytes_eq_ok_iff.mp h).2.2
    refine ⟨hbs, fun bs' h' ↦ ?_⟩
    exact (coefficient_toBytes_of_ofBytes (Element.ofBytes_eq_ok_iff.mp h').2.2).symm.trans hbs
  · intro c e h
    have hbs := exponent_toBytes_of_ofBytes (Element.ofBytes_eq_ok_iff.mp h).2.2
    refine ⟨hbs, fun bs' h' ↦ ?_⟩
    exact (exponent_toBytes_of_ofBytes (Element.ofBytes_eq_ok_iff.mp h').2.2).symm.trans hbs
  · intro c e h
    exact torus_toBytes_eq_iff (Element.ofBytes_eq_ok_iff.mp h).2.2
  · intro c bs' hg hflag hlength hhalf
    apply Element.ofBytes_congr hlength
    have hG1 := SourceCurve.ofUncompressedAnyForm?_congr (C := G1.curve) hflag hlength hhalf
    have hG2 := SourceCurve.ofUncompressedAnyForm?_congr (C := G2.curve) hflag hlength hhalf
    rcases hg with rfl | rfl
    · exact congrArg (Except.map Value.g1) (sourceGroup_ofUncompressed_congr hlength hG1)
    · exact congrArg (Except.map Value.g2) (sourceGroup_ofUncompressed_congr hlength hG2)

/-- The compressed form of infinity in the first source group, followed by one byte 48 times. -/
def paddedInfinity (pad : UInt8) : Bytes :=
  (compressedFlag ||| infinityFlag) :: Bytes.zeros 47 ++ List.replicate 48 pad

theorem torus_reads_paddedInfinity (pad : UInt8) :
    Element.ofBytes (.standard torusBackend) .g1 (paddedInfinity pad)
      = .ok (Element.fresh (.standard torusBackend) .g1) := by
  have hlength : (paddedInfinity pad).length = G1.curve.uncompressedLength := by
    rw [paddedInfinity, List.length_append, List.length_replicate]
    rfl
  have hflag : isFlagged (paddedInfinity pad) = true :=
    (by decide : hasFlag (compressedFlag ||| infinityFlag) compressedFlag = true)
  have hread : torusBackend.g1.ofUncompressed (paddedInfinity pad) = .ok .infinity :=
    sourceGroup_ofUncompressed_iff.mpr ⟨hlength,
      SourceCurve.ofUncompressedAnyForm?_eq_some_iff.mpr (.inr ⟨hflag, hlength, rfl⟩)⟩
  refine Element.ofBytes_eq_ok_iff.mpr ⟨rfl, hlength, ?_⟩
  rw [Value.ofBytes, hread]
  rfl

theorem decoded_toBytes_eq_iff_samples :
    (Element.toBytes (B := coefficientBackend) ⟨.standard _, .zr (Residue.ofNat groupOrder 5)⟩
        = Bytes.ofNatBE scalarWidth 5) ∧
      (Element.toBytes (B := exponentModel) ⟨.standard _, .g1 (Residue.ofNat groupOrder 5)⟩
        = Bytes.ofNatBE scalarWidth 5) ∧
      ((Element.fresh (.standard torusBackend) .g1).toBytes = paddedInfinity 0 ↔
        ¬ ((Group.g1 = .g1 ∨ Group.g1 = .g2) ∧ isFlagged (paddedInfinity 0) = true)) ∧
      Element.ofBytes (.standard torusBackend) .g1 (paddedInfinity 0)
        = Element.ofBytes (.standard torusBackend) .g1 (paddedInfinity 0xff) := by
  obtain ⟨hcoefficient, -⟩ := decoded_toBytes_eq_iff .zr (Bytes.ofNatBE scalarWidth 5)
  obtain ⟨-, hexponent, -⟩ := decoded_toBytes_eq_iff .g1 (Bytes.ofNatBE scalarWidth 5)
  obtain ⟨-, -, htorus, hignored⟩ := decoded_toBytes_eq_iff .g1 (paddedInfinity 0)
  refine ⟨(hcoefficient (.standard _) _ ?_).1, (hexponent (.standard _) _ ?_).1,
    htorus (.standard _) _ (torus_reads_paddedInfinity 0),
    hignored (.standard _) _ (.inl rfl) (by decide) (by decide) (by decide)⟩
  · exact Element.ofBytes_eq_ok_iff.mpr ⟨rfl, by decide, by decide⟩
  · exact Element.ofBytes_eq_ok_iff.mpr ⟨rfl, by decide, by decide⟩

/-- Not everything decoded is written as the string that it was decoded from. -/
theorem exists_decoded_toBytes_ne :
    ¬ ∀ (c : Context torusBackend) (g : Group) (bs : Bytes) (e : Element torusBackend),
      Element.ofBytes c g bs = .ok e → e.toBytes = bs := by
  intro h
  have heq := h (.standard _) .g1 (paddedInfinity 0xff) _ (torus_reads_paddedInfinity 0xff)
  exact absurd heq (by decide)

end BilinearGroups
