import BilinearGroups.Proofs.Backend.Closed

/-!
# Encodings of the target group

On every backend the written forms of the members of the target group are exactly the strings that
are read, and each is read as the member that it was written for (`CodesExactly`). So writing is a
bijection.

The backends differ in what the zero string means. As a torus coordinate it would be that of `-1`,
which is not a member, so the short form has it free for the identity. In the full form it spells
the zero of the field, which is not a member either, and the identity has coefficients of its own.
-/

namespace BilinearGroups

open Bls12

/-! ## The short form -/

/-- Members other than the identity are written by their torus coordinate, six coefficients of 48
bytes, and the identity as zero bytes. -/
structure TargetGroup.WritesTorus (G : TargetGroup Fr Fp12) : Prop where
  /-- The writer of short forms refuses no member. -/
  written {f : Fp12} : TargetMember f → TargetEncoding.toShort? f = some (G.toBytes f)
  /-- The zero string is the form of the identity alone. -/
  zeros_iff {f : Fp12} : TargetMember f → (G.toBytes f = Bytes.zeros 288 ↔ f = 1)
  /-- Another member `c0 + c1 w` has the coordinate `(c0 + 1) / c1`, where neither side of the
  fraction vanishes. -/
  coordinate {f : Fp12} : TargetMember f → f ≠ 1 → f.c1 ≠ 0 ∧ (f.c0 + 1) / f.c1 ≠ 0 ∧
    G.toBytes f = TargetEncoding.coefficientBytes ((f.c0 + 1) / f.c1).coefficients
  /-- What is read is the identity, or `(t + w) / (t - w)` for the coordinate `t`. -/
  read_iff {bs : Bytes} {f : Fp12} : G.ofBytes bs = .ok f ↔ bs = Bytes.zeros 288 ∧ f = 1 ∨
    ∃ t : Fp6, bs = TargetEncoding.coefficientBytes t.coefficients ∧
      f = (Fp12.ofFp6 t + Fp12.w) / (Fp12.ofFp6 t - Fp12.w) ∧ TargetMember f
  /-- Every coefficient that is read is below the field order. -/
  coefficient_lt {bs piece : Bytes} {f : Fp12} : G.ofBytes bs = .ok f →
    piece ∈ Bytes.pieces 48 6 bs → Bytes.toNatLE piece < fieldOrder

/-- Members are written by all their coefficients, twelve of 48 bytes. -/
structure TargetGroup.WritesCoefficients (G : TargetGroup Fr Fp12) : Prop where
  /-- The coefficients stand one after the other, from the constant one up. -/
  toBytes_eq (f : Fp12) : G.toBytes f = TargetEncoding.coefficientBytes f.coefficients
  /-- The form of the identity, which no other element has. -/
  one_iff {f : Fp12} : G.toBytes f = 1 :: Bytes.zeros 575 ↔ f = 1
  /-- The zero string is the form of no member. -/
  zeros_refused (f : Fp12) : G.ofBytes (Bytes.zeros 576) ≠ .ok f
  /-- Every coefficient that is read is below the field order. -/
  coefficient_lt {bs piece : Bytes} {f : Fp12} : G.ofBytes bs = .ok f →
    piece ∈ Bytes.pieces 48 12 bs → Bytes.toNatLE piece < fieldOrder

/-- Members are written as scalars. -/
structure TargetGroup.WritesScalars (G : TargetGroup Fr Fr) : Prop where
  /-- The form is the big-endian representative. -/
  toBytes_eq (a : Fr) : G.toBytes a = Bytes.ofNatBE 32 a.val
  /-- The zero string is the form of the identity alone. -/
  zeros_iff {a : Fr} : G.toBytes a = Bytes.zeros 32 ↔ a = 0

namespace Bls12

namespace TargetEncoding

theorem ofTorus_eq (t : Fp6) :
    ofTorus t = (Fp12.ofFp6 t + Fp12.w) / (Fp12.ofFp6 t - Fp12.w) := by
  have hnumerator : (⟨t, 1⟩ : Fp12) = Fp12.ofFp6 t + Fp12.w := by
    ext1 <;> simp [Fp12.w]
  have hdenominator : (⟨t, -1⟩ : Fp12) = Fp12.ofFp6 t - Fp12.w := by
    rw [sub_eq_add_neg]
    ext1 <;> simp [Fp12.w]
  rw [ofTorus, hnumerator, hdenominator, div_eq_mul_inv]

theorem toShort_eq {f : Fp12} (hf : TargetMember f) (h : f ≠ 1) :
    f.c1 ≠ 0 ∧ (f.c0 + 1) / f.c1 ≠ 0 ∧
      toShort f = coefficientBytes ((f.c0 + 1) / f.c1).coefficients := by
  have hc1 : f.c1 ≠ 0 := fun h0 ↦ h (hf.eq_one_of_c1 h0)
  obtain ⟨t, ht, hne, hof⟩ := exists_torus hf h
  obtain rfl : (f.c0 + 1) / f.c1 = t := by
    rw [torus?_eq_some hc1, ← div_eq_mul_inv] at ht
    exact Option.some.inj ht
  have hwritten := toShort_ofTorus (hof.symm ▸ hf)
  rw [hof] at hwritten
  exact ⟨hc1, hne, hwritten⟩

theorem toShort_eq_zeros_iff {f : Fp12} (hf : TargetMember f) :
    toShort f = Bytes.zeros shortLength ↔ f = 1 := by
  constructor
  · intro h
    by_contra hne
    obtain ⟨-, ht, hwritten⟩ := toShort_eq hf hne
    exact ht (eq_zero_of_coefficientBytes (hwritten.symm.trans h))
  · rintro rfl
    exact toShort_one

/-- What the reader of short forms makes of a string, in terms of torus coordinates. -/
theorem ofShort?_eq_some_iff_torus {bs : Bytes} {f : Fp12} :
    ofShort? bs = some f ↔ bs = Bytes.zeros shortLength ∧ f = 1 ∨
      ∃ t : Fp6, bs = coefficientBytes t.coefficients ∧
        f = (Fp12.ofFp6 t + Fp12.w) / (Fp12.ofFp6 t - Fp12.w) ∧ TargetMember f := by
  rw [ofShort?_eq_some_iff]
  constructor
  · rintro ⟨rfl, hf⟩
    by_cases h : f = 1
    · exact .inl ⟨(toShort_eq_zeros_iff hf).mpr h, h⟩
    · obtain ⟨t, -, -, rfl⟩ := exists_torus hf h
      exact .inr ⟨t, toShort_ofTorus hf, ofTorus_eq t, hf⟩
  · rintro (⟨rfl, rfl⟩ | ⟨t, rfl, rfl, hf⟩)
    · exact ⟨toShort_one.symm, .one⟩
    · rw [← ofTorus_eq] at hf ⊢
      exact ⟨(toShort_ofTorus hf).symm, hf⟩

/-- No member is written by a coefficient that is not below the field order; the coefficients of the
zero string are all zero. -/
theorem toNatLE_lt_of_mem_pieces_toShort {f : Fp12} {piece : Bytes} (hf : TargetMember f)
    (h : piece ∈ Bytes.pieces Fp.width 6 (toShort f)) : Bytes.toNatLE piece < fieldOrder := by
  have hzeros : coefficientBytes (0 : Fp6).coefficients = Bytes.zeros shortLength := by
    decide +kernel
  have hwritten : ∃ t : Fp6, toShort f = coefficientBytes t.coefficients := by
    by_cases hone : f = 1
    · exact ⟨0, by rw [hone, toShort_one, hzeros]⟩
    · exact ⟨_, (toShort_eq hf hone).2.2⟩
  obtain ⟨t, ht⟩ := hwritten
  rw [ht] at h
  exact toNatLE_lt_of_mem_pieces t.coefficients h

theorem toFull_injective : Function.Injective toFull := fun _ _ h ↦
  Fp12.coefficients_injective (coefficientBytes_inj rfl h)

theorem toFull_zero : toFull 0 = Bytes.zeros fullLength := by decide +kernel

theorem toFull_one : toFull 1 = 1 :: Bytes.zeros (fullLength - 1) := by decide +kernel

end TargetEncoding

open TargetEncoding

variable {generator : Fp12} {report : Report} {random : Draw Fp12}

theorem targetGroup_codesExactly {length : ℕ} {toBytes : Fp12 → Bytes}
    {reader : Bytes → Option Fp12} (hlength : ∀ {f}, TargetMember f → (toBytes f).length = length)
    (hreader : ∀ {bs f}, reader bs = some f ↔ toBytes f = bs ∧ TargetMember f) :
    let G := targetGroup generator length report toBytes reader random
    CodesExactly G.toBytes G.ofBytes TargetMember length :=
  Report.read_codesExactly hlength (hreader.trans And.comm)

theorem targetGroup_writesTorus :
    (targetGroup generator shortLength report toShort ofShort? random).WritesTorus where
  written := toShort?_eq_some
  zeros_iff := toShort_eq_zeros_iff
  coordinate := toShort_eq
  read_iff {bs f} := by
    refine Iff.trans ?_ ofShort?_eq_some_iff_torus
    rw [targetGroup_ofBytes_iff]
    constructor
    · exact And.right
    · intro h
      obtain ⟨rfl, hf⟩ := ofShort?_eq_some_iff.mp h
      exact ⟨length_toShort hf, h⟩
  coefficient_lt {bs piece f} h hpiece := by
    obtain ⟨rfl, hf⟩ := ofShort?_eq_some_iff.mp (targetGroup_ofBytes_iff.mp h).2
    exact toNatLE_lt_of_mem_pieces_toShort hf hpiece

theorem targetGroup_writesCoefficients :
    (targetGroup generator fullLength report toFull ofFull? random).WritesCoefficients where
  toBytes_eq _ := rfl
  one_iff {f} := by
    rw [← toFull_injective.eq_iff, toFull_one]
    rfl
  zeros_refused f h := by
    obtain ⟨hbytes, hf⟩ := ofFull?_eq_some_iff.mp (targetGroup_ofBytes_iff.mp h).2
    obtain rfl : 0 = f := toFull_injective (toFull_zero.trans hbytes)
    rw [targetMember_iff, zero_pow (by decide)] at hf
    exact zero_ne_one hf
  coefficient_lt {bs piece f} h hpiece := by
    obtain ⟨rfl, -⟩ := ofFull?_eq_some_iff.mp (targetGroup_ofBytes_iff.mp h).2
    exact toNatLE_lt_of_mem_pieces f.coefficients hpiece

end Bls12

/-! ## The backends -/

open TargetEncoding

theorem exponentModel_writesScalars : exponentModel.target.WritesScalars where
  toBytes_eq _ := rfl
  zeros_iff {a} := by
    have hzeros : Bytes.zeros 32 = Bytes.ofNatBE scalarWidth (0 : Fr).val := by decide
    constructor
    · intro h
      have hread := scalarOfBytes_eq_ok_iff.mpr h.symm
      rw [scalarOfBytes_eq_ok_iff.mpr hzeros] at hread
      exact (Except.ok.inj hread).symm
    · rintro rfl
      exact hzeros.symm

/-- **The encoding of the target group is a bijection** from the members onto the strings that are
read, on every backend. With short forms the zero string is the identity, with full forms it is
nothing, and in the exponent model it is the identity again. -/
theorem target_codec_exact (M : Torus.Maps) :
    (CodesExactly (torusBackendOver M).target.toBytes (torusBackendOver M).target.ofBytes
        TargetMember 288 ∧
      Set.BijOn (torusBackendOver M).target.toBytes {f | TargetMember f}
        {bs | ∃ f, (torusBackendOver M).target.ofBytes bs = .ok f} ∧
      (torusBackendOver M).target.WritesTorus) ∧
    (CodesExactly coefficientBackend.target.toBytes coefficientBackend.target.ofBytes
        TargetMember 576 ∧
      Set.BijOn coefficientBackend.target.toBytes {f | TargetMember f}
        {bs | ∃ f, coefficientBackend.target.ofBytes bs = .ok f} ∧
      coefficientBackend.target.WritesCoefficients) ∧
    (CodesExactly exponentModel.target.toBytes exponentModel.target.ofBytes ExponentMember 32 ∧
      Set.BijOn exponentModel.target.toBytes {a | ExponentMember a}
        {bs | ∃ a, exponentModel.target.ofBytes bs = .ok a} ∧
      exponentModel.target.WritesScalars) := by
  have hshort : ∀ {bs f}, ofShort? bs = some f ↔ toShort f = bs ∧ TargetMember f := by
    intro bs f
    rw [ofShort?_eq_some_iff, eq_comm]
  have hfull : ∀ {bs f}, ofFull? bs = some f ↔ toFull f = bs ∧ TargetMember f := by
    intro bs f
    rw [ofFull?_eq_some_iff, eq_comm]
  have htorus : CodesExactly (torusBackendOver M).target.toBytes
      (torusBackendOver M).target.ofBytes TargetMember 288 :=
    targetGroup_codesExactly length_toShort hshort
  have hcoefficient : CodesExactly coefficientBackend.target.toBytes
      coefficientBackend.target.ofBytes TargetMember 576 :=
    targetGroup_codesExactly (fun {f} _ ↦ length_toFull f) hfull
  have hexponent : CodesExactly exponentModel.target.toBytes exponentModel.target.ofBytes
      ExponentMember 32 :=
    residues_codesExactly (fun _ ↦ rfl) rfl exponentMember
  exact ⟨⟨htorus, htorus.bijOn, targetGroup_writesTorus⟩,
    ⟨hcoefficient, hcoefficient.bijOn, targetGroup_writesCoefficients⟩,
    hexponent, hexponent.bijOn, exponentModel_writesScalars⟩

theorem target_codec_exact_samples :
    (∃ f : Fp12, f ≠ 1 ∧ torusBackend.target.toBytes f ≠ Bytes.zeros 288 ∧
      torusBackend.target.ofBytes (torusBackend.target.toBytes f) = .ok f ∧
      coefficientBackend.target.ofBytes (coefficientBackend.target.toBytes f) = .ok f) ∧
    torusBackend.target.ofBytes (Bytes.zeros 288) = .ok (1 : Fp12) ∧
    coefficientBackend.target.toBytes (1 : Fp12) = 1 :: Bytes.zeros 575 ∧
    exponentModel.target.ofBytes (Bytes.ofNatBE 32 (-1 : Fr).val) = .ok (-1 : Fr) := by
  obtain ⟨⟨htorus, -, htorus'⟩, ⟨hcoefficient, -, hcoefficient'⟩, hexponent, -⟩ :=
    target_codec_exact Torus.maps
  obtain ⟨f, hf, hne⟩ := TargetMember.exists_ne_one
  refine ⟨⟨f, hne, ?_, (htorus.readsBack hf).2, (hcoefficient.readsBack hf).2⟩,
    htorus'.read_iff.mpr (.inl ⟨rfl, rfl⟩), hcoefficient'.one_iff.mpr rfl,
    (hexponent.readsBack (exponentMember (-1))).2⟩
  intro hzeros
  exact hne ((htorus'.zeros_iff hf).mp hzeros)

/-- In full form the zero string is not the encoding of the identity. -/
theorem full_one_ne_zeros :
    TargetMember 1 ∧ coefficientBackend.target.toBytes (1 : Fp12) ≠ Bytes.zeros 576 ∧
      ∀ f : Fp12, coefficientBackend.target.ofBytes (Bytes.zeros 576) ≠ .ok f :=
  ⟨.one, fun h ↦ zero_ne_one (toFull_injective (toFull_zero.trans h.symm)),
    targetGroup_writesCoefficients.zeros_refused⟩

end BilinearGroups
