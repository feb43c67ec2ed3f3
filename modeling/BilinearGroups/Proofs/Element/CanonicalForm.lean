import BilinearGroups.Proofs.Element.CompressedForm

/-!
# Canonical forms tell elements apart

The encoding of a member has the length of its group and is decoded to an equal element in every
handle of the context. So two members of one group and one context are equal exactly if their
encodings are, and for points also exactly if their compressed forms are. How the elements were
computed leaves no trace in the bytes.

A value that is not a member may be refused on the way back, so membership cannot be dropped.
-/

namespace BilinearGroups

open Bls12

variable {B : Backend} {M : B.Membership}

namespace Element

variable {a b : Element B}

/-- A member is decoded from its encoding, in any context. -/
theorem ofBytes_toBytes_of_context (hM : M.ReadsBack) (ha : M.Holds a.value) (c : Context B) :
    ofBytes c a.group a.toBytes = .ok ⟨c, a.value⟩ :=
  ofBytes_toBytes (e := ⟨c, a.value⟩) hM ha

theorem length_toBytes (hM : M.ReadsBack) (ha : M.Holds a.value) :
    a.toBytes.length = a.byteLength :=
  (ofBytes_eq_ok_iff.mp (ofBytes_toBytes hM ha)).2.1

/-- Members of one group with one encoding have one value. -/
theorem value_eq_of_toBytes (hM : M.ReadsBack) (ha : M.Holds a.value) (hb : M.Holds b.value)
    (hgroup : a.group = b.group) (h : a.toBytes = b.toBytes) : a.value = b.value := by
  have hread := ofBytes_toBytes_of_context hM ha a.context
  rw [hgroup, h, ofBytes_toBytes_of_context hM hb a.context] at hread
  exact (congrArg Element.value (Except.ok.inj hread)).symm

/-- Members with one compressed form have one value. -/
theorem value_eq_of_toCompressedBytes (hM : M.CompressesExactly) (ha : M.Holds a.value)
    (hb : M.Holds b.value) (hgroup : a.group = b.group) (hpoint : a.group = .g1 ∨ a.group = .g2)
    (h : a.toCompressedBytes = b.toCompressedBytes) : a.value = b.value := by
  obtain ⟨bs, hbytes⟩ := exists_toCompressedBytes hpoint
  have hread := (Value.readCompressed_eq_ok_iff hM).mpr ⟨rfl, ha, hbytes⟩
  have hread' := (Value.readCompressed_eq_ok_iff hM).mpr ⟨hgroup.symm, hb, h.symm.trans hbytes⟩
  exact Except.ok.inj (hread.symm.trans hread')

end Element

/-- **Canonical bytes are lossless.** Over every backend a member is decoded from its encoding to an
equal element, and members of one group are equal exactly if they have one encoding; for points
exactly if they have one compressed form. -/
theorem canonical_bytes_lossless {B : Backend} {M : B.Membership} (hM : M.Supported) :
    (∀ (c : Context B) (e : Element B), M.Holds e.value → c.sameAs e.context = true →
      e.toBytes.length = c.byteLength e.group ∧
        ∃ e', Element.ofBytes c e.group e.toBytes = .ok e' ∧ e'.equal e = true) ∧
    (∀ a b : Element B, M.Holds a.value → M.Holds b.value →
      a.context.sameAs b.context = true → a.group = b.group →
        (a.equal b = true ↔ a.toBytes = b.toBytes) ∧
        (a.group = .g1 ∨ a.group = .g2 →
          (a.equal b = true ↔ a.toCompressedBytes = b.toCompressedBytes))) := by
  constructor
  · intro c e hmember hsame
    have hdecoded := Element.ofBytes_toBytes_of_context hM.readsBack hmember c
    have hequal : Element.equal ⟨c, e.value⟩ e = true := (Element.equal_iff_value hsame).mpr rfl
    exact ⟨Element.length_toBytes hM.readsBack hmember, _, hdecoded, hequal⟩
  · intro a b ha hb hsame hgroup
    constructor
    · rw [Element.equal_iff_value hsame]
      constructor
      · intro h
        exact congrArg Value.toBytes h
      · exact Element.value_eq_of_toBytes hM.readsBack ha hb hgroup
    · intro hpoint
      rw [Element.equal_iff_value hsame]
      constructor
      · intro h
        exact congrArg Value.toCompressed h
      · exact Element.value_eq_of_toCompressedBytes hM.compressesExactly ha hb hgroup hpoint

/-- A point and its negative have different encodings, and their sum has that of the neutral
element. -/
theorem canonical_bytes_lossless_generators :
    (∃ e', Element.ofBytes (.standard coefficientBackend) .g2
        (G2.curve.toUncompressed G2.generator) = .ok e' ∧
      e'.equal ⟨.standard coefficientBackend, .g2 G2.generator⟩ = true) ∧
    G1.curve.toUncompressed G1.generator ≠ G1.curve.toUncompressed (-G1.generator) ∧
    G1.curve.toCompressed (G1.generator - G1.generator) = G1.curve.toCompressed .infinity := by
  obtain ⟨hdecoded, -⟩ := canonical_bytes_lossless (.curves .coefficient)
  obtain ⟨-, hequal⟩ := canonical_bytes_lossless (.curves (.torus Torus.maps))
  let point (P : Point Fp) : Element torusBackend := ⟨.standard torusBackend, .g1 P⟩
  have hgenerator := G1.member_generator
  have hnegative := hequal (point G1.generator) (point (-G1.generator)) hgenerator hgenerator.neg
    rfl rfl
  have hdifference := hequal (point (G1.generator - G1.generator)) (point .infinity)
    (hgenerator.sub hgenerator) SourceCurve.member_infinity rfl rfl
  refine ⟨(hdecoded (.standard coefficientBackend) ⟨_, .g2 G2.generator⟩ G2.member_generator
    rfl).2, ?_, ?_⟩
  · intro h
    have hvalue := (Element.equal_iff_value rfl).mp (hnegative.1.mpr h)
    have hne : G1.generator ≠ -G1.generator := by decide
    exact hne (Value.g1.inj hvalue)
  · have hzero : G1.generator - G1.generator = .infinity := by decide
    exact Except.ok.inj ((hdifference.2 (.inl rfl)).mp
      ((Element.equal_iff_value rfl).mpr (congrArg Value.g1 hzero)))

end BilinearGroups
