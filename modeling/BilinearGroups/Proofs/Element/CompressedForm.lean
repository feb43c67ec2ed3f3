import BilinearGroups.Proofs.Backend.Encodings
import BilinearGroups.Proofs.Element.Result

/-!
# Compressed forms of elements

An element is decoded from a compressed form exactly if the form is that of a member, and then it is
this member. So every member has one compressed form, the neutral elements included. Over the curves
the forms of opposite members differ in one bit.

Only points have compressed forms. In the other two groups everything that has to do with them is
refused by the group alone, before the bytes are looked at.
-/

namespace BilinearGroups

open Bls12

variable {B : Backend} {M : B.Membership}

namespace Value

/-- What a compressed form is read as. -/
def readCompressed (bs : Bytes) : Group → Except Error (Value B)
  | .g1 => (Element.decoded .g1 (B.g1.ofCompressed bs)).map g1
  | .g2 => (Element.decoded .g2 (B.g2.ofCompressed bs)).map g2
  | g => .error (.unsupported .compressedEncoding g)

/-- What is read from a compressed form is a member with this form. -/
theorem readCompressed_eq_ok_iff (hM : M.CompressesExactly) {bs : Bytes} {g : Group} {v : Value B} :
    readCompressed bs g = .ok v ↔ v.group = g ∧ M.Holds v ∧ v.toCompressed = .ok bs := by
  constructor
  · intro h
    cases g with
    | g1 =>
      obtain ⟨p, hp, rfl⟩ := exists_of_map_eq_ok h
      obtain ⟨hmember, hbytes⟩ := hM.g1.decode_eq_ok_iff.mp (Element.decoded_eq_ok_iff.mp hp)
      exact ⟨rfl, hmember, congrArg Except.ok hbytes⟩
    | g2 =>
      obtain ⟨q, hq, rfl⟩ := exists_of_map_eq_ok h
      obtain ⟨hmember, hbytes⟩ := hM.g2.decode_eq_ok_iff.mp (Element.decoded_eq_ok_iff.mp hq)
      exact ⟨rfl, hmember, congrArg Except.ok hbytes⟩
    | gt => cases h
    | zr => cases h
  · rintro ⟨rfl, hmember, hbytes⟩
    cases v with
    | g1 p =>
      have hread := hM.g1.decode_eq_ok_iff.mpr ⟨hmember, Except.ok.inj hbytes⟩
      exact congrArg (Except.map g1) (Element.decoded_eq_ok_iff.mpr hread)
    | g2 q =>
      have hread := hM.g2.decode_eq_ok_iff.mpr ⟨hmember, Except.ok.inj hbytes⟩
      exact congrArg (Except.map g2) (Element.decoded_eq_ok_iff.mpr hread)
    | gt t => cases hbytes
    | zr s => cases hbytes

/-- A compressed form has the length of its group. -/
theorem length_of_toCompressed (hM : M.CompressesExactly) {v : Value B} (hv : M.Holds v)
    {bs : Bytes} (h : v.toCompressed = .ok bs) (c : Context B) :
    c.compressedByteLength v.group = .ok bs.length := by
  cases v with
  | g1 p =>
    cases h
    exact congrArg Except.ok (hM.g1.length_encode hv).symm
  | g2 q =>
    cases h
    exact congrArg Except.ok (hM.g2.length_encode hv).symm
  | gt t => cases h
  | zr s => cases h

/-- The compressed forms of a member and of its negative differ in one bit. -/
theorem toCompressed_negative (hM : M.FlagsSigns) {v : Value B} (hv : M.Holds v)
    (hg : v.group = .g1 ∨ v.group = .g2) (hne : v.isIdentity = false) :
    ∃ b bs, v.toCompressed = .ok (b :: bs) ∧
      v.negative.toCompressed = .ok ((b ^^^ 0x20) :: bs) := by
  cases v with
  | g1 p =>
    obtain ⟨b, bs, hp, hneg⟩ := hM.g1.toCompressed_neg hv (of_decide_eq_false hne)
    exact ⟨b, bs, congrArg Except.ok hp, congrArg Except.ok hneg⟩
  | g2 q =>
    obtain ⟨b, bs, hq, hneg⟩ := hM.g2.toCompressed_neg hv (of_decide_eq_false hne)
    exact ⟨b, bs, congrArg Except.ok hq, congrArg Except.ok hneg⟩
  | gt t => rcases hg with h | h <;> cases h
  | zr s => rcases hg with h | h <;> cases h

/-- The compressed form of a neutral element consists of flags only. -/
theorem toCompressed_identity (hM : M.FlagsSigns) {c : Context B} {g : Group} {n : ℕ}
    (h : c.compressedByteLength g = .ok (n + 1)) :
    M.Holds (identity g) ∧ (identity (B := B) g).toCompressed = .ok (0xc0 :: Bytes.zeros n) := by
  cases g with
  | g1 =>
    have hform := hM.g1.toCompressed_identity
    rw [Except.ok.inj h, Nat.add_sub_cancel] at hform
    exact ⟨hM.identity_g1, congrArg Except.ok hform⟩
  | g2 =>
    have hform := hM.g2.toCompressed_identity
    rw [Except.ok.inj h, Nat.add_sub_cancel] at hform
    exact ⟨hM.identity_g2, congrArg Except.ok hform⟩
  | gt => cases h
  | zr => cases h

end Value

namespace Element

variable {c : Context B} {g : Group} {bs : Bytes} {e : Element B}

/-! ## Reading -/

theorem setFromCompressedBytes_result (bs : Bytes) : (setFromCompressedBytes bs).result e = do
    checkLength e.group (← e.compressedByteLength) bs
    return e.withValue (← Value.readCompressed bs e.group) := by
  rw [setFromCompressedBytes, Update.result_get]
  simp only [Update.result_lift]
  cases e.group with
  | g1 =>
    rw [Value.readCompressed]
    cases decoded .g1 (B.g1.ofCompressed bs) <;> rfl
  | g2 =>
    rw [Value.readCompressed]
    cases decoded .g2 (B.g2.ofCompressed bs) <;> rfl
  | gt => rfl
  | zr => rfl

/-- An element is decoded exactly from the compressed form of a member, and is this member. -/
theorem ofCompressedBytes_eq_ok_iff (hM : M.CompressesExactly) :
    ofCompressedBytes c g bs = .ok e ↔
      e.context = c ∧ e.group = g ∧ M.Holds e.value ∧ e.toCompressedBytes = .ok bs := by
  rw [ofCompressedBytes, setFromCompressedBytes_result, group_fresh]
  constructor
  · intro h
    obtain ⟨n, -, h⟩ := exists_of_bind_eq_ok h
    obtain ⟨⟨⟩, -, h⟩ := exists_of_bind_eq_ok h
    obtain ⟨v, hv, h⟩ := exists_of_bind_eq_ok h
    cases h
    exact ⟨rfl, (Value.readCompressed_eq_ok_iff hM).mp hv⟩
  · rintro ⟨rfl, hg, hmember, hbytes⟩
    have hlength : (fresh e.context g).compressedByteLength = .ok bs.length := by
      rw [compressedByteLength, group_fresh, ← hg]
      exact Value.length_of_toCompressed hM hmember hbytes e.context
    have hcheck : checkLength g bs.length bs = .ok () := if_neg (not_not.mpr rfl)
    have hread := (Value.readCompressed_eq_ok_iff hM).mpr ⟨hg, hmember, hbytes⟩
    rw [hlength, hread]
    show (do checkLength g bs.length bs; _ : Except Error (Element B)) = _
    rw [hcheck]
    rfl

/-- The neutral element of a group is decoded from one string. -/
theorem ofCompressedBytes_eq_fresh_iff (hM : M.CompressesExactly) (hF : M.FlagsSigns) {n : ℕ}
    (hlength : c.compressedByteLength g = .ok (n + 1)) :
    ofCompressedBytes c g bs = .ok (fresh c g) ↔ bs = 0xc0 :: Bytes.zeros n := by
  obtain ⟨hmember, hform⟩ := Value.toCompressed_identity hF hlength
  rw [ofCompressedBytes_eq_ok_iff hM]
  constructor
  · rintro ⟨-, -, -, hbytes⟩
    exact Except.ok.inj (hbytes.symm.trans hform)
  · rintro rfl
    exact ⟨rfl, group_fresh c g, hmember, hform⟩

theorem exists_toCompressedBytes (hg : e.group = .g1 ∨ e.group = .g2) :
    ∃ bs, e.toCompressedBytes = .ok bs := by
  obtain ⟨c, v⟩ := e
  cases v with
  | g1 p => exact ⟨_, rfl⟩
  | g2 q => exact ⟨_, rfl⟩
  | gt t => rcases hg with h | h <;> cases h
  | zr s => rcases hg with h | h <;> cases h

/-! ## Groups without compressed forms -/

theorem compressedByteLength_eq_error (hg : g = .gt ∨ g = .zr) :
    c.compressedByteLength g = .error (.unsupported .compressedEncoding g) := by
  rcases hg with rfl | rfl <;> rfl

theorem toCompressedBytes_eq_error (hg : e.group = .gt ∨ e.group = .zr) :
    e.toCompressedBytes = .error (.unsupported .compressedEncoding e.group) := by
  obtain ⟨c, v⟩ := e
  cases v with
  | g1 p => rcases hg with h | h <;> cases h
  | g2 q => rcases hg with h | h <;> cases h
  | gt t => rfl
  | zr s => rfl

/-- The refusal does not depend on the bytes, and the element keeps its value. -/
theorem setFromCompressedBytes_refused (hg : e.group = .gt ∨ e.group = .zr) (bs : Bytes) :
    (setFromCompressedBytes bs).run e = .error (.unsupported .compressedEncoding e.group) e := by
  rw [(setFromCompressedBytes_replaces bs).run_eq, setFromCompressedBytes_result,
    compressedByteLength, compressedByteLength_eq_error hg]
  rfl

theorem ofCompressedBytes_refused (hg : g = .gt ∨ g = .zr) (bs : Bytes) :
    ofCompressedBytes c g bs = .error (.unsupported .compressedEncoding g) := by
  have hrun := setFromCompressedBytes_refused (e := fresh c g) ((group_fresh c g).symm ▸ hg) bs
  rw [ofCompressedBytes, Update.result, hrun, group_fresh]

end Element

/-- **Compressed forms are exact.** Over every backend a string is decoded exactly if it is the
compressed form of a member, which is then the element, and the form of a member has the length of
its group. Over the curves the neutral element has one form, and negation changes one bit of the
form of another member. In the groups without compressed forms all of this is refused. -/
theorem compressed_codec_exact {B : Backend} {M : B.Membership} (hM : M.Supported) :
    (∀ (c : Context B) (g : Group) (bs : Bytes) (e : Element B),
      Element.ofCompressedBytes c g bs = .ok e ↔
        e.context = c ∧ e.group = g ∧ M.Holds e.value ∧ e.toCompressedBytes = .ok bs) ∧
    (∀ e : Element B, M.Holds e.value → e.group = .g1 ∨ e.group = .g2 →
      ∃ bs, e.toCompressedBytes = .ok bs ∧ e.compressedByteLength = .ok bs.length) ∧
    (M.OnCurves → ∀ (c : Context B) (g : Group) (n : ℕ),
      c.compressedByteLength g = .ok (n + 1) → ∀ bs,
        (Element.ofCompressedBytes c g bs = .ok (.fresh c g) ↔ bs = 0xc0 :: Bytes.zeros n)) ∧
    (M.OnCurves → ∀ e : Element B, M.Holds e.value → e.group = .g1 ∨ e.group = .g2 →
      e.isZero = false → ∃ b bs, e.toCompressedBytes = .ok (b :: bs) ∧
        ∀ x : Element B, x.checkCompatible e = .ok () → ∃ e', (Element.neg e).result x = .ok e' ∧
          e'.toCompressedBytes = .ok ((b ^^^ 0x20) :: bs)) ∧
    (∀ (c : Context B) (g : Group), g = .gt ∨ g = .zr → ∀ (bs : Bytes) (e : Element B),
      e.group = g →
        c.compressedByteLength g = .error (.unsupported .compressedEncoding g) ∧
        e.compressedByteLength = .error (.unsupported .compressedEncoding g) ∧
        e.toCompressedBytes = .error (.unsupported .compressedEncoding g) ∧
        Element.ofCompressedBytes c g bs = .error (.unsupported .compressedEncoding g) ∧
        (Element.setFromCompressedBytes bs).run e
          = .error (.unsupported .compressedEncoding g) e) := by
  have hexact := hM.compressesExactly
  refine ⟨fun c g bs e ↦ Element.ofCompressedBytes_eq_ok_iff hexact, ?_, ?_, ?_, ?_⟩
  · intro e hmember hg
    obtain ⟨bs, hbytes⟩ := Element.exists_toCompressedBytes hg
    exact ⟨bs, hbytes, Value.length_of_toCompressed hexact hmember hbytes e.context⟩
  · intro hcurves c g n hlength bs
    exact Element.ofCompressedBytes_eq_fresh_iff hexact hcurves.flagsSigns hlength
  · intro hcurves e hmember hg hne
    obtain ⟨b, bs, hbytes, hneg⟩ :=
      Value.toCompressed_negative hcurves.flagsSigns hmember hg hne
    refine ⟨b, bs, hbytes, fun x hx ↦ ⟨x.withValue e.value.negative, ?_, hneg⟩⟩
    rw [Element.neg_result, hx]
    rfl
  · rintro c g hg bs e rfl
    exact ⟨Element.compressedByteLength_eq_error hg, Element.compressedByteLength_eq_error hg,
      Element.toCompressedBytes_eq_error hg, Element.ofCompressedBytes_refused hg bs,
      Element.setFromCompressedBytes_refused hg bs⟩

/-- The generator of the first source group as an element. -/
def generatorElement : Element torusBackend := ⟨.standard torusBackend, .g1 G1.generator⟩

theorem compressed_codec_exact_generator :
    (∃ b bs e', generatorElement.toCompressedBytes = .ok (b :: bs) ∧
      Element.ofCompressedBytes (.standard torusBackend) .g1 (b :: bs) = .ok generatorElement ∧
      Element.ofCompressedBytes (.standard torusBackend) .g1 ((b ^^^ 0x20) :: bs) = .ok e') ∧
    Element.ofCompressedBytes (.standard coefficientBackend) .g2 (0xc0 :: Bytes.zeros 95)
      = .ok (.fresh (.standard coefficientBackend) .g2) ∧
    Element.ofCompressedBytes (.standard exponentModel) .gt []
      = .error (.unsupported .compressedEncoding .gt) := by
  have htorus := Backend.Membership.OnCurves.torus Torus.maps
  have hgenerator := G1.member_generator
  obtain ⟨hread, -, -, hneg, -⟩ := compressed_codec_exact (.curves htorus)
  obtain ⟨-, -, hidentity, -, -⟩ := compressed_codec_exact (.curves .coefficient)
  obtain ⟨-, -, -, -, hrefused⟩ := compressed_codec_exact .exponent
  obtain ⟨b, bs, hbytes, hnegative⟩ := hneg htorus generatorElement hgenerator (.inl rfl) rfl
  obtain ⟨e', he', hbytes'⟩ := hnegative generatorElement rfl
  obtain rfl : generatorElement.withValue (.g1 (-G1.generator)) = e' := Except.ok.inj he'
  refine ⟨⟨b, bs, generatorElement.withValue (.g1 (-G1.generator)), hbytes, ?_, ?_⟩, ?_, ?_⟩
  · exact (hread _ .g1 _ _).mpr ⟨rfl, rfl, hgenerator, hbytes⟩
  · exact (hread _ .g1 _ _).mpr ⟨rfl, rfl, hgenerator.neg, hbytes'⟩
  · exact (hidentity .coefficient (.standard coefficientBackend) .g2 95 rfl _).mpr rfl
  · exact (hrefused (.standard exponentModel) .gt (.inl rfl) []
      (.fresh (.standard exponentModel) .gt) rfl).2.2.2.1

end BilinearGroups
