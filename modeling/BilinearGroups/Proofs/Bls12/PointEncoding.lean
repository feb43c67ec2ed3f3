import BilinearGroups.Bls12.PointEncoding
import BilinearGroups.Bytes.Digits
import BilinearGroups.Proofs.Bls12.Membership

/-!
# What the readers of points accept

A coordinate has exactly one string of bytes of its width, and the first of these bytes carries no
flag (`LawfulCoordinates`). From this the accepted strings of both readers of full forms are
determined: one accepts the written forms of the points that pass its test and nothing else
(`ofUncompressedByEigenvalue?_eq_some_iff`), the other accepts the written forms of members and,
besides, every string that starts with a compressed form of a member
(`ofUncompressedAnyForm?_eq_some_iff`).
-/

namespace BilinearGroups.Bls12

/-! ## Flags -/

/-- What holds of the first bytes, tried one by one, holds of every byte among them. -/
theorem byte_of_lt {p : UInt8 → Prop} {bound : ℕ} (h : ∀ n < bound, p (UInt8.ofNat n)) {b : UInt8}
    (hb : b.toNat < bound) : p b := by
  rw [← UInt8.ofNat_toNat (x := b)]
  exact h b.toNat hb

/-- A first byte below 32 carries no flag. -/
theorem hasFlag_of_lt {b : UInt8} (h : b.toNat < 32) :
    hasFlag b compressedFlag = false ∧ hasFlag b infinityFlag = false ∧
      hasFlag b largerFlag = false :=
  byte_of_lt (p := fun b ↦ hasFlag b compressedFlag = false ∧ hasFlag b infinityFlag = false ∧
    hasFlag b largerFlag = false) (by decide) h

/-- The bytes announce a compressed form. -/
def isFlagged : Bytes → Bool
  | [] => false
  | b :: _ => hasFlag b compressedFlag

/-! ## Coordinates -/

/-- Coordinates are read back from their bytes and from no other bytes of the same number, and leave
the flags of the first byte free. -/
class SourceCurve.LawfulCoordinates {F : Type} (C : SourceCurve F) : Prop where
  width_pos : 0 < C.width
  length_toBytes : ∀ x, (C.toBytes x).length = C.width
  ofBytes?_eq_some_iff : ∀ {bs : Bytes} {x : F}, bs.length = C.width →
    (C.ofBytes? bs = some x ↔ bs = C.toBytes x)
  head_lt : ∀ x, ∃ b bs, C.toBytes x = b :: bs ∧ b.toNat < 32

namespace Fp

theorem length_toBytes (a : Fp) : a.toBytes.length = width := Bytes.length_ofNatBE _ _

theorem val_lt (a : Fp) : a.val < 256 ^ width := a.isLt.trans (by decide)

theorem ofBytes?_eq_some_iff {bs : Bytes} {a : Fp} (h : bs.length = width) :
    ofBytes? bs = some a ↔ bs = a.toBytes := by
  rw [ofBytes?, Residue.ofNat?_eq_some_iff, eq_comm, Bytes.toNatBE_eq_iff h a.val_lt, toBytes]

theorem head_lt (a : Fp) : ∃ b bs, a.toBytes = b :: bs ∧ b.toNat < 32 := by
  obtain ⟨b, bs, hbs⟩ : ∃ b bs, a.toBytes = b :: bs :=
    List.exists_cons_of_length_eq_add_one (length_toBytes a)
  refine ⟨b, bs, hbs, ?_⟩
  have hlength : bs.length = 47 := by
    have := length_toBytes a
    rw [hbs, List.length_cons, width] at this
    omega
  have hval : Bytes.toNatBE (b :: bs) = a.val := by
    rw [← hbs]
    exact (Bytes.toNatBE_eq_iff (length_toBytes a) a.val_lt).mpr rfl
  -- The whole number is below `32 · 256⁴⁷`, and its first digit counts for `256⁴⁷`.
  have hlt : 256 ^ 47 * b.toNat < 256 ^ 47 * 32 := by
    calc 256 ^ 47 * b.toNat ≤ Bytes.toNatBE (b :: bs) := by
          rw [Bytes.toNatBE_cons, hlength]
          exact Nat.le_add_left _ _
      _ < fieldOrder := by
          rw [hval]
          exact a.isLt
      _ < 256 ^ 47 * 32 := by decide
  exact Nat.lt_of_mul_lt_mul_left hlt

end Fp

instance : G1.curve.LawfulCoordinates :=
  ⟨by decide, Fp.length_toBytes, Fp.ofBytes?_eq_some_iff, Fp.head_lt⟩

namespace Fp2

theorem length_toBytes (a : Fp2) : a.toBytes.length = width := by
  rw [toBytes, List.length_append, Fp.length_toBytes, Fp.length_toBytes]
  rfl

theorem ofBytes?_eq_some_iff {bs : Bytes} {a : Fp2} (h : bs.length = width) :
    ofBytes? bs = some a ↔ bs = a.toBytes := by
  have hwidth : width = Fp.width + Fp.width := rfl
  have htake : (bs.take Fp.width).length = Fp.width := by rw [List.length_take]; omega
  have hdrop : (bs.drop Fp.width).length = Fp.width := by rw [List.length_drop]; omega
  constructor
  · intro hread
    simp only [ofBytes?, Option.bind_eq_bind, Option.bind_eq_some_iff, Option.pure_def,
      Option.some.injEq] at hread
    obtain ⟨c1, h1, c0, h0, rfl⟩ := hread
    rw [toBytes, ← (Fp.ofBytes?_eq_some_iff htake).mp h1,
      ← (Fp.ofBytes?_eq_some_iff hdrop).mp h0, List.take_append_drop]
  · rintro rfl
    have h1 : (a.toBytes).take Fp.width = a.c1.toBytes := by
      rw [toBytes, ← Fp.length_toBytes a.c1, List.take_left]
    have h0 : (a.toBytes).drop Fp.width = a.c0.toBytes := by
      rw [toBytes, ← Fp.length_toBytes a.c1, List.drop_left]
    simp only [ofBytes?, Option.bind_eq_bind, h1, h0,
      (Fp.ofBytes?_eq_some_iff (Fp.length_toBytes _)).mpr rfl, Option.bind_some, Option.pure_def]

theorem head_lt (a : Fp2) : ∃ b bs, a.toBytes = b :: bs ∧ b.toNat < 32 := by
  obtain ⟨b, bs, hbs, hb⟩ := a.c1.head_lt
  exact ⟨b, bs ++ a.c0.toBytes, by rw [toBytes, hbs, List.cons_append], hb⟩

end Fp2

instance : G2.curve.LawfulCoordinates :=
  ⟨by decide, Fp2.length_toBytes, Fp2.ofBytes?_eq_some_iff, Fp2.head_lt⟩

/-! ## Written forms -/

namespace SourceCurve

variable {F : Type} {C : SourceCurve F} [hC : C.LawfulCoordinates]

/-- The written form of an affine point starts with a byte without flags. -/
theorem exists_toUncompressed_affine (x y : F) :
    ∃ b bs, C.toUncompressed (.affine x y) = b :: bs ∧ b.toNat < 32 := by
  obtain ⟨b, bs, hbs, hb⟩ := hC.head_lt x
  exact ⟨b, bs ++ C.toBytes y, by rw [toUncompressed, hbs, List.cons_append], hb⟩

/-- No written full form announces a compressed one. -/
theorem isFlagged_toUncompressed (P : Point F) : isFlagged (C.toUncompressed P) = false := by
  cases P with
  | infinity => exact (by decide : hasFlag infinityFlag compressedFlag = false)
  | affine x y =>
    obtain ⟨b, bs, hbs, hb⟩ := C.exists_toUncompressed_affine x y
    rw [hbs]
    exact (hasFlag_of_lt hb).1

theorem length_toUncompressed (P : Point F) :
    (C.toUncompressed P).length = C.uncompressedLength := by
  cases P with
  | infinity =>
    have hpos := hC.width_pos
    rw [toUncompressed, List.length_cons, Bytes.zeros, List.length_replicate, uncompressedLength]
    omega
  | affine x y =>
    rw [toUncompressed, List.length_append, hC.length_toBytes, hC.length_toBytes,
      uncompressedLength]
    omega

theorem toBytes_injective : Function.Injective C.toBytes := by
  intro x y h
  have hread := (hC.ofBytes?_eq_some_iff (hC.length_toBytes y)).mpr h.symm
  rw [(hC.ofBytes?_eq_some_iff (hC.length_toBytes y)).mpr rfl] at hread
  exact (Option.some.inj hread).symm

/-- Different points have different full forms. -/
theorem toUncompressed_injective : Function.Injective C.toUncompressed := by
  -- The first byte tells infinity from the other points, as only infinity has a flag there.
  have hinfinity : ∀ x y : F, C.toUncompressed .infinity ≠ C.toUncompressed (.affine x y) := by
    intro x y h
    obtain ⟨b, bs, hbs, hb⟩ := C.exists_toUncompressed_affine x y
    rw [hbs, toUncompressed] at h
    rw [← (List.cons.inj h).1] at hb
    exact absurd hb (by decide)
  rintro (_ | ⟨x, y⟩) (_ | ⟨x', y'⟩) h
  · rfl
  · exact absurd h (hinfinity x' y')
  · exact absurd h.symm (hinfinity x y)
  · obtain ⟨hx, hy⟩ := List.append_inj h
      ((hC.length_toBytes x).trans (hC.length_toBytes x').symm)
    rw [toBytes_injective hx, toBytes_injective hy]

/-! ## Readers -/

/-- The two halves of a string are the coordinates of exactly the points that it is the written form
of. -/
theorem coordinates?_eq_some_iff {bs : Bytes} {P : Point F}
    (h : bs.length = C.uncompressedLength) :
    C.coordinates? bs = some P ↔ bs = C.toUncompressed P ∧ P ≠ .infinity := by
  have hlength : bs.length = C.width + C.width := by
    rw [h, uncompressedLength]
    omega
  have htake : (bs.take C.width).length = C.width := by rw [List.length_take]; omega
  have hdrop : (bs.drop C.width).length = C.width := by rw [List.length_drop]; omega
  simp only [coordinates?, Option.bind_eq_bind, Option.bind_eq_some_iff, Option.pure_def,
    Option.some.injEq, hC.ofBytes?_eq_some_iff htake, hC.ofBytes?_eq_some_iff hdrop]
  constructor
  · rintro ⟨x, hx, y, hy, rfl⟩
    exact ⟨by rw [toUncompressed, ← hx, ← hy, List.take_append_drop], nofun⟩
  · rintro ⟨hbs, hP⟩
    cases P with
    | infinity => exact absurd rfl hP
    | affine x y =>
      refine ⟨x, ?_, y, ?_, rfl⟩
      · rw [hbs, toUncompressed, ← hC.length_toBytes x, List.take_left]
      · rw [hbs, toUncompressed, ← hC.length_toBytes x, List.drop_left]

/-- A full form without flags is read through its coordinates. -/
private theorem coordinates?_toUncompressed (x y : F) :
    C.coordinates? (C.toUncompressed (.affine x y)) = some (.affine x y) :=
  (coordinates?_eq_some_iff (length_toUncompressed _)).mpr ⟨rfl, nofun⟩

variable [DecidableEq F] [Zero F] [Add F] [Sub F] [Neg F] [Mul F] [Inv F]

omit hC in
theorem member_of_ofCompressed? {bs : Bytes} {P : Point F} (h : C.ofCompressed? bs = some P) :
    C.Member P := by
  cases bs with
  | nil => cases h
  | cons b bs =>
    rw [ofCompressed?] at h
    split_ifs at h with hlength hinfinity hform
    · cases h
      exact member_infinity
    · simp only [Option.bind_eq_bind, Option.bind_eq_some_iff] at h
      obtain ⟨x, -, P', -, hP⟩ := h
      split_ifs at hP with hmember
      cases hP
      exact hmember

omit hC [Zero F] in
/-- A member lies on its curve, so the test that it has to pass is that of its order. -/
theorem Member.passesSubgroupTest {P : Point F} (h : C.Member P) :
    C.passesSubgroupTest P = true := by
  rw [SourceCurve.passesSubgroupTest, if_pos h.1, h.2]
  rfl

theorem ofUncompressedByEigenvalue?_eq_some_iff {bs : Bytes} {P : Point F} :
    C.ofUncompressedByEigenvalue? bs = some P ↔
      bs = C.toUncompressed P ∧ C.passesSubgroupTest P = true := by
  constructor
  · intro h
    cases bs with
    | nil => cases h
    | cons b bs =>
      rw [ofUncompressedByEigenvalue?] at h
      split_ifs at h with hlength hflag hform
      · cases h
        refine ⟨hform, ?_⟩
        rw [passesSubgroupTest, if_pos (by trivial), decide_eq_true_eq]
        exact (member_infinity (C := C)).2
      · obtain ⟨Q, hQ, hread⟩ := Option.bind_eq_some_iff.mp h
        split_ifs at hread with htest
        cases hread
        have hlength : (b :: bs).length = C.uncompressedLength := of_not_not hlength
        exact ⟨((coordinates?_eq_some_iff hlength).mp hQ).1, htest⟩
  · rintro ⟨rfl, htest⟩
    cases P with
    | infinity =>
      have hlength : (Bytes.zeros (C.uncompressedLength - 1)).length + 1 = C.uncompressedLength :=
        length_toUncompressed (C := C) .infinity
      rw [toUncompressed, ofUncompressedByEigenvalue?, if_neg (not_not.mpr hlength),
        if_pos (by decide)]
      exact if_pos rfl
    | affine x y =>
      have hlength := C.length_toUncompressed (.affine x y)
      obtain ⟨b, bs, hbs, hb⟩ := C.exists_toUncompressed_affine x y
      obtain ⟨h1, h2, h3⟩ := hasFlag_of_lt hb
      rw [hbs, List.length_cons] at hlength
      rw [hbs, ofUncompressedByEigenvalue?, if_neg (not_not.mpr hlength), h1, h2, h3,
        if_neg (by decide), ← hbs, coordinates?_toUncompressed]
      exact if_pos htest

theorem ofUncompressedAnyForm?_eq_some_iff {bs : Bytes} {P : Point F} :
    C.ofUncompressedAnyForm? bs = some P ↔
      bs = C.toUncompressed P ∧ C.Member P ∨
        isFlagged bs = true ∧ bs.length = C.uncompressedLength ∧
          C.ofCompressed? (bs.take C.width) = some P := by
  constructor
  · intro h
    cases bs with
    | nil => cases h
    | cons b bs =>
      rw [ofUncompressedAnyForm?] at h
      split_ifs at h with hlength hcompressed hflag hform
      · exact .inr ⟨hcompressed, of_not_not hlength, h⟩
      · cases h
        exact .inl ⟨hform, member_infinity⟩
      · obtain ⟨Q, hQ, hread⟩ := Option.bind_eq_some_iff.mp h
        split_ifs at hread with hmember
        cases hread
        have hlength : (b :: bs).length = C.uncompressedLength := of_not_not hlength
        exact .inl ⟨((coordinates?_eq_some_iff hlength).mp hQ).1, hmember⟩
  · rintro (⟨rfl, hmember⟩ | ⟨hflag, hlength, hread⟩)
    · cases P with
      | infinity =>
        have hlength : (Bytes.zeros (C.uncompressedLength - 1)).length + 1 = C.uncompressedLength :=
        length_toUncompressed (C := C) .infinity
        rw [toUncompressed, ofUncompressedAnyForm?, if_neg (not_not.mpr hlength),
          if_neg (by decide), if_pos (by decide)]
        exact if_pos rfl
      | affine x y =>
        have hlength := C.length_toUncompressed (.affine x y)
        obtain ⟨b, bs, hbs, hb⟩ := C.exists_toUncompressed_affine x y
        obtain ⟨h1, h2, h3⟩ := hasFlag_of_lt hb
        rw [hbs, List.length_cons] at hlength
        rw [hbs, ofUncompressedAnyForm?, if_neg (not_not.mpr hlength), h1, h2, h3,
          if_neg (by decide), if_neg (by decide), ← hbs, coordinates?_toUncompressed]
        exact if_pos hmember
    · cases bs with
      | nil => cases hflag
      | cons b bs =>
        rw [List.length_cons] at hlength
        rw [ofUncompressedAnyForm?, if_neg (not_not.mpr hlength)]
        exact (if_pos hflag).trans hread

theorem member_of_ofUncompressedAnyForm? {bs : Bytes} {P : Point F}
    (h : C.ofUncompressedAnyForm? bs = some P) : C.Member P := by
  rcases ofUncompressedAnyForm?_eq_some_iff.mp h with ⟨-, hmember⟩ | ⟨-, -, hread⟩
  · exact hmember
  · exact member_of_ofCompressed? hread

end SourceCurve

end BilinearGroups.Bls12
