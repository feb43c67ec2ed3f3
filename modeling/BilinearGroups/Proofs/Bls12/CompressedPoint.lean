import BilinearGroups.Proofs.Bls12.PointEncoding
import BilinearGroups.Proofs.Bls12.SquareRoots

/-!
# What the reader of compressed forms accepts

A compressed form is the bytes of an abscissa with three flags in the first byte, which the abscissa
leaves free. Setting the flags and reading them are inverse to each other (`mark`), and a member is
determined by its abscissa and its sign, because its ordinate is not zero. So the reader accepts the
compressed forms of members and nothing else (`ofCompressed?_eq_some_iff`).

Outside the subgroup this fails: a point with ordinate zero has one form, but both signs lead to it.
It is the test for membership that keeps the second sign out.
-/

namespace BilinearGroups.Bls12

/-! ## The marked byte -/

/-- The first byte of a compressed form of an affine point: a byte of the abscissa, marked as
compressed and by the sign of the ordinate. -/
def mark (larger : Bool) (b : UInt8) : UInt8 :=
  b ||| compressedFlag ||| if larger then largerFlag else 0

/-- The flags of a marked byte are read back, and so is the byte. -/
theorem mark_read {b : UInt8} (h : b.toNat < 32) (larger : Bool) :
    hasFlag (mark larger b) compressedFlag = true ∧ hasFlag (mark larger b) infinityFlag = false ∧
      hasFlag (mark larger b) largerFlag = larger ∧ mark larger b &&& coordinateMask = b := by
  revert larger
  refine byte_of_lt (p := fun b ↦ ∀ larger, hasFlag (mark larger b) compressedFlag = true ∧
    hasFlag (mark larger b) infinityFlag = false ∧ hasFlag (mark larger b) largerFlag = larger ∧
      mark larger b &&& coordinateMask = b) ?_ h
  decide

/-- A byte that announces an affine compressed form is the marked byte of its lower bits. -/
theorem mark_coordinate {b : UInt8} (hcompressed : hasFlag b compressedFlag = true)
    (hinfinity : hasFlag b infinityFlag = false) :
    mark (hasFlag b largerFlag) (b &&& coordinateMask) = b := by
  revert hcompressed hinfinity
  refine byte_of_lt (p := fun b ↦ hasFlag b compressedFlag = true → hasFlag b infinityFlag = false →
    mark (hasFlag b largerFlag) (b &&& coordinateMask) = b) ?_ b.toNat_lt
  decide +kernel

/-- The other sign is the other state of one bit. -/
theorem mark_not {b : UInt8} (h : b.toNat < 32) (larger : Bool) :
    mark (!larger) b = mark larger b ^^^ largerFlag := by
  revert larger
  refine byte_of_lt (p := fun b ↦ ∀ larger,
    mark (!larger) b = mark larger b ^^^ largerFlag) ?_ h
  decide

/-! ## Written forms -/

namespace SourceCurve

variable {F : Type} {C : SourceCurve F}

theorem toCompressed_affine {x y : F} {b : UInt8} {bs : Bytes} (h : C.toBytes x = b :: bs) :
    C.toCompressed (.affine x y) = mark (C.isLarger y) b :: bs := by
  rw [toCompressed, h]
  rfl

variable [hC : C.LawfulCoordinates]

theorem length_toCompressed (P : Point F) :
    (C.toCompressed P).length = C.compressedLength := by
  cases P with
  | infinity =>
    have hpos := hC.width_pos
    rw [toCompressed, List.length_cons, Bytes.zeros, List.length_replicate, compressedLength]
    omega
  | affine x y =>
    obtain ⟨b, bs, hbs, -⟩ := hC.head_lt x
    rw [toCompressed_affine hbs, List.length_cons, ← List.length_cons, ← hbs, hC.length_toBytes,
      compressedLength]

/-! ## The reader -/

variable [Field F] [DecidableEq F] [hroots : C.LawfulRoots] [Point.SmoothCurve C.b]
variable {bs : Bytes} {P : Point F}

/-- What is read is the member whose compressed form it was. -/
theorem toCompressed_of_ofCompressed? (h : C.ofCompressed? bs = some P) :
    C.Member P ∧ C.toCompressed P = bs := by
  cases bs with
  | nil => cases h
  | cons b bs =>
    rw [ofCompressed?] at h
    split_ifs at h with hrefused hinfinity hform
    · cases h
      exact ⟨member_infinity, hform.symm⟩
    · simp only [Bool.or_eq_true, decide_eq_true_eq, Bool.not_eq_true', not_or,
        Bool.not_eq_false] at hrefused
      obtain ⟨hlength, hcompressed⟩ := hrefused
      simp only [Option.bind_eq_bind, Option.bind_eq_some_iff] at h
      obtain ⟨x, hx, Q, hQ, hmember⟩ := h
      split_ifs at hmember with hmem
      cases hmember
      obtain ⟨y, rfl, hsign⟩ := exists_of_lift? hQ
      have hwidth : ((b &&& coordinateMask) :: bs).length = C.width := of_not_not hlength
      have hbytes := ((hC.ofBytes?_eq_some_iff hwidth).mp hx).symm
      refine ⟨hmem, ?_⟩
      rw [toCompressed_affine hbytes, hsign hmem.ordinate_ne_zero,
        mark_coordinate hcompressed (Bool.not_eq_true _ ▸ hinfinity)]

/-- The compressed form of a member is read. -/
theorem ofCompressed?_toCompressed (h : C.Member P) :
    C.ofCompressed? (C.toCompressed P) = some P := by
  cases P with
  | infinity =>
    have hlength := C.length_toCompressed .infinity
    rw [toCompressed, List.length_cons] at hlength
    rw [toCompressed, ofCompressed?, if_neg (by rw [hlength]; simp; decide), if_pos (by decide)]
    exact if_pos rfl
  | affine x y =>
    obtain ⟨b, bs, hbs, hb⟩ := hC.head_lt x
    obtain ⟨hcompressed, hinfinity, hlarger, hcoordinate⟩ := mark_read hb (C.isLarger y)
    have hlength := C.length_toCompressed (.affine x y)
    rw [toCompressed_affine hbs, List.length_cons] at hlength
    have hread : C.ofBytes? (b :: bs) = some x :=
      (hC.ofBytes?_eq_some_iff (hbs ▸ hC.length_toBytes x)).mpr hbs.symm
    rw [toCompressed_affine hbs, ofCompressed?, hcompressed, hinfinity, hlarger, hcoordinate,
      hlength, hread, if_neg (by simp), if_neg (by decide)]
    simp only [Option.bind_eq_bind, Option.bind_some, lift?_eq_some h.1 h.ordinate_ne_zero]
    exact if_pos h

theorem ofCompressed?_eq_some_iff :
    C.ofCompressed? bs = some P ↔ C.Member P ∧ C.toCompressed P = bs := by
  constructor
  · exact toCompressed_of_ofCompressed?
  · rintro ⟨hmember, rfl⟩
    exact ofCompressed?_toCompressed hmember

/-- The compressed forms of a member and of its negative differ in the flag of the larger
ordinate. -/
theorem toCompressed_neg (h : C.Member P) (hP : P ≠ .infinity) :
    ∃ b bs, C.toCompressed P = b :: bs ∧ C.toCompressed (-P) = (b ^^^ largerFlag) :: bs := by
  cases P with
  | infinity => exact absurd rfl hP
  | affine x y =>
    obtain ⟨b, bs, hbs, hb⟩ := hC.head_lt x
    refine ⟨_, bs, toCompressed_affine hbs, ?_⟩
    show C.toCompressed (.affine x (-y)) = _
    rw [toCompressed_affine hbs, hroots.isLarger_neg h.ordinate_ne_zero, mark_not hb]

end SourceCurve

end BilinearGroups.Bls12
