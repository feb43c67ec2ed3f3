import BilinearGroups.Proofs.Backend.Closed
import BilinearGroups.Proofs.Backend.WideReduction
import BilinearGroups.Proofs.Element.Matching

/-!
# The curve backends are interchangeable

The two backends over BLS12-381 are made of the same groups, the same hashes and the same pairing,
and differ in the rest (`CurveParts`): in how wide integers are reduced, points multiplied, values
drawn, refusals reported, and target group elements written. As long as the parts are sound, none of
this can be told from the outside: wide integers are reduced modulo the group order, members of the
source groups are multiplied by the whole scalar, and they are read from their full forms.

What is left are draws, encodings of the target group, and full forms that are not those of members.
Apart from these, two backends with sound parts match, every member with itself. The hashes and the
pairing are assumed to give members.
-/

namespace BilinearGroups

open Bls12

/-! ## The parts in which curve backends differ -/

/-- What a backend over BLS12-381 has of its own. -/
structure CurveParts where
  /-- The name in diagnostic output. -/
  name : String
  /-- The reduction of wide integers. -/
  reduceWide : Bytes → Fr
  /-- A scalar drawn uniformly. -/
  drawScalar : Draw Fr
  /-- How closely a refused encoding is reported. -/
  report : Report
  /-- The reader of full forms in the first source group. -/
  readG1 : Bytes → Option (Point Fp)
  /-- The reader of full forms in the second source group. -/
  readG2 : Bytes → Option (Point Fp2)
  /-- The multiple of a point of the first source group. -/
  multipleG1 : ℕ → Point Fp → Point Fp
  /-- A point drawn from the first source group. -/
  drawG1 : Draw (Point Fp)
  /-- A point drawn from the second source group. -/
  drawG2 : Draw (Point Fp2)
  /-- The number of bytes of a target group encoding. -/
  targetLength : ℕ
  /-- The encoding of a target group element. -/
  writeTarget : Fp12 → Bytes
  /-- The reader of target group encodings. -/
  readTarget : Bytes → Option Fp12
  /-- An element drawn from the target group. -/
  drawTarget : Draw Fp12

/-- The backend over BLS12-381 with given maps into the groups, of which it does not use the draws,
and with given parts. -/
def curveBackend (M : Torus.Maps) (p : CurveParts) : Backend where
  name := p.name
  Scalar := Fr
  G1 := Point Fp
  G2 := Point Fp2
  Target := Fp12
  scalars := residueField p.reduceWide p.drawScalar
  g1 := sourceGroup .g1 G1.curve M.hashG1 p.report p.readG1 p.multipleG1 p.drawG1
  g2 := sourceGroup .g2 G2.curve M.hashG2 p.report p.readG2 Point.multiple p.drawG2
  target := targetGroup (M.pairing G1.generator G2.generator) p.targetLength p.report p.writeTarget
    p.readTarget p.drawTarget
  pairing := M.pairing
  pairingProduct := pairingProductOfLists M.pairingProduct
  identification := none

/-- The parts of the backend with short target encodings. -/
def torusParts (M : Torus.Maps) : CurveParts where
  name := "blstrs"
  reduceWide := (residueField reduceLE drawScalar).hornerReduce
  drawScalar := drawScalar
  report := .lengthAndValue
  readG1 := G1.curve.ofUncompressedAnyForm?
  readG2 := G2.curve.ofUncompressedAnyForm?
  multipleG1 := Point.multiple
  drawG1 := M.drawG1
  drawG2 := M.drawG2
  targetLength := TargetEncoding.shortLength
  writeTarget := TargetEncoding.toShort
  readTarget := TargetEncoding.ofShort?
  drawTarget := M.drawTarget

/-- The parts of the backend with full target encodings. -/
def coefficientParts : CurveParts where
  name := "arkworks"
  reduceWide := reduceLE
  drawScalar := drawScaledScalar
  report := .valueOnly
  readG1 := G1.curve.ofUncompressedByEigenvalue?
  readG2 := G2.curve.ofUncompressedByEigenvalue?
  multipleG1 := G1.multipleBySplit
  drawG1 := Coefficient.drawPoint G1.curve Coefficient.drawFp
  drawG2 := Coefficient.drawPoint G2.curve Coefficient.drawFp2
  targetLength := TargetEncoding.fullLength
  writeTarget := TargetEncoding.toFull
  readTarget := TargetEncoding.ofFull?
  drawTarget := Coefficient.drawTarget

/-- BLS12-381 with target group elements in full form, over given maps into the groups. -/
def coefficientBackendOver (M : Torus.Maps) : Backend := curveBackend M coefficientParts

theorem torusBackendOver_eq (M : Torus.Maps) :
    torusBackendOver M = curveBackend M (torusParts M) := by
  unfold torusBackendOver curveBackend
  rw [plainScalars_eq]
  rfl

theorem coefficientBackend_eq :
    coefficientBackend = coefficientBackendOver Torus.maps := by
  unfold coefficientBackend coefficientBackendOver curveBackend scaledScalars targetGenerator
  dsimp only [Torus.maps, coefficientParts]

/-- The parts agree with the groups, as far as these can tell. -/
structure CurveParts.Sound (p : CurveParts) : Prop where
  reduceWide {bs : Bytes} : bs.length ≤ 64 → p.reduceWide bs = reduceLE bs
  multipleG1 (n : ℕ) {P : Point Fp} : G1.curve.Member P → p.multipleG1 n P = P.multiple n
  readG1 {P : Point Fp} : G1.curve.Member P → p.readG1 (G1.curve.toUncompressed P) = some P
  readG2 {Q : Point Fp2} : G2.curve.Member Q → p.readG2 (G2.curve.toUncompressed Q) = some Q

theorem torusParts_sound (M : Torus.Maps) : (torusParts M).Sound where
  reduceWide h := plainScalars_reduceWide h
  multipleG1 _ _ _ := rfl
  readG1 hP := SourceCurve.ofUncompressedAnyForm?_eq_some_iff.mpr (.inl ⟨rfl, hP⟩)
  readG2 hQ := SourceCurve.ofUncompressedAnyForm?_eq_some_iff.mpr (.inl ⟨rfl, hQ⟩)

theorem coefficientParts_sound : coefficientParts.Sound where
  reduceWide _ := rfl
  multipleG1 _ _ hP := if_pos hP
  readG1 hP := SourceCurve.ofUncompressedByEigenvalue?_eq_some_iff.mpr ⟨rfl, hP.passesSubgroupTest⟩
  readG2 hQ := SourceCurve.ofUncompressedByEigenvalue?_eq_some_iff.mpr ⟨rfl, hQ.passesSubgroupTest⟩

namespace CurveParts.Sound

variable {p : CurveParts} (hp : p.Sound) (M : Torus.Maps)

include hp

theorem ofUncompressed_g1 {P : Point Fp} (hP : G1.curve.Member P) :
    (curveBackend M p).g1.ofUncompressed (G1.curve.toUncompressed P) = .ok P :=
  sourceGroup_ofUncompressed_iff.mpr ⟨SourceCurve.length_toUncompressed _, hp.readG1 hP⟩

theorem ofUncompressed_g2 {Q : Point Fp2} (hQ : G2.curve.Member Q) :
    (curveBackend M p).g2.ofUncompressed (G2.curve.toUncompressed Q) = .ok Q :=
  sourceGroup_ofUncompressed_iff.mpr ⟨SourceCurve.length_toUncompressed _, hp.readG2 hQ⟩

end CurveParts.Sound

/-- However refusals are reported, an encoding of the right length is read by the reader. -/
theorem Bls12.Report.read_of_length {α : Type} {report : Report} {length : ℕ}
    {wrongLength wrongValue : BackendError} {reader : Bytes → Option α} {bs : Bytes}
    (h : bs.length = length) : report.read length wrongLength wrongValue reader bs =
      (reader bs).elim (.error wrongValue) .ok := by
  unfold Report.read
  rw [if_neg (not_not.mpr h)]
  cases reader bs <;> rfl

/-- The bytes are not data that the backends may read differently for the group: in the source
groups they have a wrong length or are the full form of a member, and nothing is read for the target
group. -/
def ReadAlike : Group → Bytes → Prop
  | .g1, bs => bs.length ≠ G1.curve.uncompressedLength ∨
      ∃ P, G1.curve.Member P ∧ G1.curve.toUncompressed P = bs
  | .g2, bs => bs.length ≠ G2.curve.uncompressedLength ∨
      ∃ Q, G2.curve.Member Q ∧ G2.curve.toUncompressed Q = bs
  | .gt, _ => False
  | .zr, _ => True

/-! ## Matching values -/

variable {M : Torus.Maps} {p p' : CurveParts}

/-- The value is the same member over both backends. -/
inductive SameMember : Value (curveBackend M p) → Value (curveBackend M p') → Prop
  /-- A member of the first source group. -/
  | g1 {P : Point Fp} : G1.curve.Member P → SameMember (.g1 P) (.g1 P)
  /-- A member of the second source group. -/
  | g2 {Q : Point Fp2} : G2.curve.Member Q → SameMember (.g2 Q) (.g2 Q)
  /-- A member of the target group. -/
  | gt {f : Fp12} : TargetMember f → SameMember (.gt f) (.gt f)
  /-- A scalar. -/
  | zr (s : Fr) : SameMember (.zr s) (.zr s)

namespace SameMember

variable {v w : Value (curveBackend M p)} {v' w' : Value (curveBackend M p')}

theorem group_eq (h : SameMember v v') : v.group = v'.group := by cases h <;> rfl

theorem eq_iff (hv : SameMember v v') (hw : SameMember w w') : v = w ↔ v' = w' := by
  cases hv with
  | g1 =>
    cases hw with
    | g1 => exact ⟨fun h ↦ congrArg _ (Value.g1.inj h), fun h ↦ congrArg _ (Value.g1.inj h)⟩
    | g2 | gt | zr => exact iff_of_false nofun nofun
  | g2 =>
    cases hw with
    | g2 => exact ⟨fun h ↦ congrArg _ (Value.g2.inj h), fun h ↦ congrArg _ (Value.g2.inj h)⟩
    | g1 | gt | zr => exact iff_of_false nofun nofun
  | gt =>
    cases hw with
    | gt => exact ⟨fun h ↦ congrArg _ (Value.gt.inj h), fun h ↦ congrArg _ (Value.gt.inj h)⟩
    | g1 | g2 | zr => exact iff_of_false nofun nofun
  | zr =>
    cases hw with
    | zr => exact ⟨fun h ↦ congrArg _ (Value.zr.inj h), fun h ↦ congrArg _ (Value.zr.inj h)⟩
    | g1 | g2 | gt => exact iff_of_false nofun nofun

theorem g1_of_eq {P Q Q' : Point Fp} (hP : G1.curve.Member P) (hQ : Q = P) (hQ' : Q' = P) :
    SameMember (.g1 Q : Value (curveBackend M p)) (.g1 Q' : Value (curveBackend M p')) := by
  subst hQ hQ'
  exact .g1 hP

theorem zr_of_eq {s s' : Fr} (h : s = s') :
    SameMember (.zr s : Value (curveBackend M p)) (.zr s' : Value (curveBackend M p')) := by
  subst h
  exact .zr s

theorem scalar_eq {s s' : Fr}
    (h : SameMember (.zr s : Value (curveBackend M p)) (.zr s' : Value (curveBackend M p'))) :
    s = s' := by
  cases h
  rfl

theorem identity (M : Torus.Maps) (p p' : CurveParts) (g : Group) :
    SameMember (.identity g : Value (curveBackend M p))
      (.identity g : Value (curveBackend M p')) := by
  cases g with
  | g1 => exact .g1 SourceCurve.member_infinity
  | g2 => exact .g2 SourceCurve.member_infinity
  | gt => exact .gt .one
  | zr => exact .zr _

theorem one (M : Torus.Maps) (p p' : CurveParts) (g : Group) :
    SameMember (.one g : Value (curveBackend M p)) (.one g : Value (curveBackend M p')) := by
  cases g with
  | g1 => exact identity M p p' .g1
  | g2 => exact identity M p p' .g2
  | gt => exact identity M p p' .gt
  | zr => exact .zr _

theorem isIdentity (h : SameMember v v') : v.isIdentity = v'.isIdentity := by cases h <;> rfl

theorem generator (hM : M.ReturnsMembers) (p p' : CurveParts) (g : Group) :
    Agree (SameMember (M := M) (p := p)) (Value.generator g)
      (Value.generator (B := curveBackend M p') g) := by
  cases g with
  | g1 => exact .ok (.g1 G1.member_generator)
  | g2 => exact .ok (.g2 G2.member_generator)
  | gt => exact .ok (.gt (hM.pairing G1.member_generator G2.member_generator))
  | zr => exact .error _

/-! ### Arithmetic -/

theorem scalarInverse (M : Torus.Maps) (p p' : CurveParts) (s : Fr) :
    Agree (· = ·) (Value.scalarInverse (B := curveBackend M p) s)
      (Value.scalarInverse (B := curveBackend M p') s) := by
  have hinv (p : CurveParts) : (curveBackend M p).scalars.inv? s =
      if s = 0 then none else some s⁻¹ := rfl
  unfold Value.scalarInverse
  rw [hinv, hinv]
  split_ifs
  · exact .error _
  · exact .ok rfl

theorem combineScalars (M : Torus.Maps) (p p' : CurveParts) (op : BinaryOp) (s t : Fr) :
    Agree (· = ·) (Value.combineScalars (B := curveBackend M p) op s t)
      (Value.combineScalars (B := curveBackend M p') op s t) := by
  cases op with
  | add | sub | mul => exact .ok rfl
  | div => exact (scalarInverse M p p' t).map fun _ _ h ↦ congrArg (s * ·) h

theorem combine (op : BinaryOp) (hv : SameMember v v') (hw : SameMember w w') :
    Agree SameMember (v.combine op w) (v'.combine op w') := by
  have hrefused := hw.isIdentity
  unfold Value.combine
  rw [hrefused]
  by_cases hdivisor : op = .div ∧ w'.isIdentity = true
  · rw [if_pos hdivisor, if_pos hdivisor]
    exact .error _
  rw [if_neg hdivisor, if_neg hdivisor]
  cases hv with
  | g1 hP =>
    cases hw with
    | g1 hQ =>
      refine .ok (g1_of_eq ?_ rfl rfl)
      split_ifs
      · exact hP.sub hQ
      · exact hP.add hQ
    | g2 | gt | zr => exact .error _
  | g2 hP =>
    cases hw with
    | g2 hQ =>
      refine .ok (.g2 ?_)
      split_ifs
      · exact hP.sub hQ
      · exact hP.add hQ
    | g1 | gt | zr => exact .error _
  | gt hf =>
    cases hw with
    | gt hg =>
      refine .ok (.gt ?_)
      dsimp only [curveBackend, targetGroup]
      split_ifs
      · exact hf.mul hg.inv
      · exact hf.mul hg
    | g1 | g2 | zr => exact .error _
  | zr s =>
    cases hw with
    | zr t => exact (combineScalars M p p' op s t).map fun _ _ h ↦ zr_of_eq h
    | g1 | g2 | gt => exact .error _

theorem negative (hv : SameMember v v') : SameMember v.negative v'.negative := by
  cases hv with
  | g1 hP => exact .g1 hP.neg
  | g2 hQ => exact .g2 hQ.neg
  | gt hf => exact .gt hf.inv
  | zr s => exact .zr _

theorem inverse (hv : SameMember v v') : Agree SameMember v.inverse v'.inverse := by
  have hrefused := hv.isIdentity
  unfold Value.inverse
  rw [hrefused]
  split_ifs
  · exact .error _
  cases hv with
  | g1 hP => exact .ok (.g1 hP.neg)
  | g2 hQ => exact .ok (.g2 hQ.neg)
  | gt hf => exact .ok (.gt hf.inv)
  | zr s => exact (scalarInverse M p p' s).map fun _ _ h ↦ zr_of_eq h

section Sound

variable (hp : p.Sound) (hp' : p'.Sound)

include hp hp'

theorem multiple (k : Fr) (hv : SameMember v v') :
    SameMember (v.multiple (B := curveBackend M p) k)
      (v'.multiple (B := curveBackend M p') k) := by
  cases hv with
  | g1 hP =>
    exact g1_of_eq (hP.multiple k.val) (hp.multipleG1 k.val hP) (hp'.multipleG1 k.val hP)
  | g2 hQ => exact .g2 (hQ.multiple _)
  | gt hf => exact .gt (hf.power _)
  | zr s => exact .zr _

theorem power (k : Fr) (hv : SameMember v v') :
    SameMember (v.power (B := curveBackend M p) k) (v'.power (B := curveBackend M p') k) := by
  cases hv with
  | g1 hP => exact (SameMember.g1 hP).multiple hp hp' k
  | g2 hQ => exact (SameMember.g2 hQ).multiple hp hp' k
  | gt hf => exact (SameMember.gt hf).multiple hp hp' k
  | zr s => exact .zr _

/-! ### Hashes -/

theorem hashScalar (M : Torus.Maps) (message tag : Bytes) :
    (curveBackend M p).scalars.hash message tag = (curveBackend M p').scalars.hash message tag := by
  have hlength := Blake3.length_output_le Blake3.deriveMaterial (Blake3.contextKey tag) message
  exact (hp.reduceWide hlength).trans (hp'.reduceWide hlength).symm

theorem hash (hM : M.ReturnsMembers) (message tag : Bytes) (g : Group) :
    Agree (SameMember (M := M) (p := p)) (Value.hash message tag g)
      (Value.hash (B := curveBackend M p') message tag g) := by
  have hscalar := hashScalar hp hp' M message tag
  cases g with
  | g1 => exact .ok (.g1 (hM.hashG1 _ _))
  | g2 => exact .ok (.g2 (hM.hashG2 _ _))
  | gt =>
    have hgenerator : SameMember (M := M) (p := p) (.gt (M.pairing G1.generator G2.generator))
        (.gt (M.pairing G1.generator G2.generator) : Value (curveBackend M p')) :=
      .gt (hM.pairing G1.member_generator G2.member_generator)
    unfold Value.hash
    rw [hscalar]
    exact .ok (hgenerator.multiple hp hp' _)
  | zr => exact .ok (zr_of_eq hscalar)

/-! ### Encodings -/

theorem readFull (M : Torus.Maps) {bs : Bytes} {g : Group} (h : ReadAlike g bs)
    (c : Context (curveBackend M p)) (c' : Context (curveBackend M p')) :
    Agree SameMember (Element.readValue c bs g) (Element.readValue c' bs g) := by
  cases g with
  | g1 =>
    refine .check fun hcheck ↦ ?_
    obtain hlength | ⟨P, hP, rfl⟩ := h
    · exact absurd (Element.checkLength_eq_ok hcheck) hlength
    · rw [Value.ofBytes, Value.ofBytes, hp.ofUncompressed_g1 M hP, hp'.ofUncompressed_g1 M hP]
      exact .ok (.g1 hP)
  | g2 =>
    refine .check fun hcheck ↦ ?_
    obtain hlength | ⟨Q, hQ, rfl⟩ := h
    · exact absurd (Element.checkLength_eq_ok hcheck) hlength
    · rw [Value.ofBytes, Value.ofBytes, hp.ofUncompressed_g2 M hQ, hp'.ofUncompressed_g2 M hQ]
      exact .ok (.g2 hQ)
  | gt => exact h.elim
  | zr =>
    refine .check fun _ ↦ ?_
    have hread (p : CurveParts) : Value.ofBytes (B := curveBackend M p) bs .zr =
        (scalarOfBytes bs).map (Value.zr (B := curveBackend M p)) := rfl
    rw [hread, hread]
    cases scalarOfBytes bs with
    | error reason => exact .error _
    | ok s => exact .ok (.zr s)

end Sound

/-- Once the length is right, compressed forms are read by the same reader. -/
theorem readCompressed {c : Context (curveBackend M p)} {g : Group} {bs : Bytes}
    (hlength : c.compressedByteLength g = .ok bs.length) :
    Agree SameMember (Value.readCompressed (B := curveBackend M p) bs g)
      (Value.readCompressed (B := curveBackend M p') bs g) := by
  cases g with
  | g1 =>
    have hread (p : CurveParts) : (curveBackend M p).g1.ofCompressed bs =
        (G1.curve.ofCompressed? bs).elim (.error (.pointValue .g1 true)) .ok :=
      Report.read_of_length (Except.ok.inj hlength).symm
    rw [Value.readCompressed, Value.readCompressed, hread, hread]
    cases hP : G1.curve.ofCompressed? bs with
    | none => exact .error _
    | some P => exact .ok (.g1 (SourceCurve.member_of_ofCompressed? hP))
  | g2 =>
    have hread (p : CurveParts) : (curveBackend M p).g2.ofCompressed bs =
        (G2.curve.ofCompressed? bs).elim (.error (.pointValue .g2 true)) .ok :=
      Report.read_of_length (Except.ok.inj hlength).symm
    rw [Value.readCompressed, Value.readCompressed, hread, hread]
    cases hQ : G2.curve.ofCompressed? bs with
    | none => exact .error _
    | some Q => exact .ok (.g2 (SourceCurve.member_of_ofCompressed? hQ))
  | gt | zr => exact .error _

/-! ### Pairings -/

theorem leftPoint (h : SameMember v v') :
    Agree (fun P P' ↦ SameMember (.g1 P : Value (curveBackend M p))
      (.g1 P' : Value (curveBackend M p'))) (Context.leftPoint v) (Context.leftPoint v') := by
  cases h with
  | g1 hP => exact .ok (.g1 hP)
  | g2 | gt | zr => exact .error _

theorem rightPoint (h : SameMember v v') :
    Agree (fun Q Q' ↦ SameMember (.g2 Q : Value (curveBackend M p))
      (.g2 Q' : Value (curveBackend M p'))) (Context.rightPoint v) (Context.rightPoint v') := by
  cases h with
  | g2 hQ => exact .ok (.g2 hQ)
  | g1 | gt | zr => exact .error _

theorem pairing (hM : M.ReturnsMembers) {P P' : Point Fp} {Q Q' : Point Fp2}
    (hP : SameMember (.g1 P : Value (curveBackend M p)) (.g1 P' : Value (curveBackend M p')))
    (hQ : SameMember (.g2 Q : Value (curveBackend M p)) (.g2 Q' : Value (curveBackend M p'))) :
    SameMember (.gt (M.pairing P Q) : Value (curveBackend M p))
      (.gt (M.pairing P' Q') : Value (curveBackend M p')) := by
  cases hP with
  | g1 hP =>
    cases hQ with
    | g2 hQ => exact .gt (hM.pairing hP hQ)

/-- The pairs are of the same members of the source groups. -/
def SamePoints (M : Torus.Maps) (p p' : CurveParts) (x x' : Point Fp × Point Fp2) : Prop :=
  SameMember (.g1 x.1 : Value (curveBackend M p)) (.g1 x'.1 : Value (curveBackend M p')) ∧
    SameMember (.g2 x.2 : Value (curveBackend M p)) (.g2 x'.2 : Value (curveBackend M p'))

theorem eq_of_points {points points' : List (Point Fp × Point Fp2)}
    (h : List.Forall₂ (SamePoints M p p') points points') :
    points = points' ∧ ∀ x ∈ points, G1.curve.Member x.1 ∧ G2.curve.Member x.2 := by
  induction h with
  | nil => exact ⟨rfl, fun _ hx ↦ absurd hx List.not_mem_nil⟩
  | @cons x x' _ _ hx _ ih =>
    obtain ⟨P, Q⟩ := x
    obtain ⟨P', Q'⟩ := x'
    obtain ⟨hP, hQ⟩ := hx
    cases hP with
    | g1 hP =>
      cases hQ with
      | g2 hQ => exact ⟨congrArg _ ih.1, List.forall_mem_cons.mpr ⟨⟨hP, hQ⟩, ih.2⟩⟩

theorem pairingProduct (hM : M.ReturnsMembers) {points points' : List (Point Fp × Point Fp2)}
    (h : List.Forall₂ (SamePoints M p p') points points') :
    Agree (fun f f' ↦ SameMember (.gt f : Value (curveBackend M p))
        (.gt f' : Value (curveBackend M p')))
      (pairingProductOfLists M.pairingProduct (points.map Prod.fst) (points.map Prod.snd))
      (pairingProductOfLists M.pairingProduct (points'.map Prod.fst) (points'.map Prod.snd)) := by
  obtain ⟨rfl, hmembers⟩ := eq_of_points h
  have hlengths : (points.map Prod.fst).length = (points.map Prod.snd).length := by
    rw [List.length_map, List.length_map]
  rw [pairingProductOfLists, if_neg (not_not.mpr hlengths)]
  exact .ok (.gt (hM.pairingProduct (List.forall_mem_map.mpr fun x hx ↦ (hmembers x hx).1)
    (List.forall_mem_map.mpr fun x hx ↦ (hmembers x hx).2)))

end SameMember

/-! ## Two backends over the same maps -/

/-- Over the same maps, backends with sound parts match, every member with itself. -/
def curveMatching (hM : M.ReturnsMembers) (hp : p.Sound) (hp' : p'.Sound) :
    Matching (curveBackend M p) (curveBackend M p') where
  Values := SameMember
  Reads := ReadAlike
  Decompresses := True
  Draws := False
  Hashes := True
  Left _ := True
  Right _ := True
  group_eq := SameMember.group_eq
  eq_iff := SameMember.eq_iff
  orderBytes := rfl
  scalarBytes h := congrArg _ (SameMember.scalar_eq h)
  identity := SameMember.identity M p p'
  one := SameMember.one M p p'
  integer n := .zr _
  generator := SameMember.generator hM p p'
  random := False.elim
  hash _ := SameMember.hash hp hp' hM
  combine op _ _ _ _ _ := SameMember.combine op
  inverse := SameMember.inverse
  negative := SameMember.negative
  multiple {k _ _ _} hk hv := by
    cases hk
    exact hv.multiple hp hp' k
  power {k _ _ _} hk hv := by
    cases hk
    exact hv.power hp hp' k
  read h := SameMember.readFull hp hp' M h
  readCompressed _ _ _ _ h := SameMember.readCompressed h
  compressedByteLength _ g _ _ := by cases g <;> rfl
  leftPoint _ := SameMember.leftPoint
  rightPoint _ := SameMember.rightPoint
  pairing := SameMember.pairing hM
  pairingProduct := SameMember.pairingProduct hM

end BilinearGroups
