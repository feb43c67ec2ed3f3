import BilinearGroups.Proofs.Backend.Closed
import BilinearGroups.Proofs.Bls12.CompressedPoint

/-!
# Encodings of points over the backends

Compressed forms are exact on every backend: what the reader accepts are the written forms of
members. Full forms are not, since either curve backend accepts more; but on every backend the
written forms of members are read back.

The backends are gathered in two predicates, so that what holds over all of them is stated once.
`Supported` is about the three of them, and `OnCurves` about the two with points on curves, where
the flags of a compressed form mean something.
-/

namespace BilinearGroups

open Bls12

/-- The flags of compressed forms are those of a curve: the neutral element is only flags, and the
forms of another member and of its negative differ in one flag. -/
structure SourceGroup.FlagsSigns {S P : Type} (G : SourceGroup S P) (member : P → Prop) : Prop where
  toCompressed_identity : G.toCompressed G.identity = 0xc0 :: Bytes.zeros (G.compressedLength - 1)
  toCompressed_neg {p : P} : member p → p ≠ G.identity →
    ∃ b bs, G.toCompressed p = b :: bs ∧ G.toCompressed (G.neg p) = (b ^^^ 0x20) :: bs

/-- Compressed forms are exact in both source groups. -/
structure Backend.Membership.CompressesExactly {B : Backend} (M : B.Membership) : Prop where
  g1 : CodesExactly B.g1.toCompressed B.g1.ofCompressed M.g1 B.g1.compressedLength
  g2 : CodesExactly B.g2.toCompressed B.g2.ofCompressed M.g2 B.g2.compressedLength

/-- Compressed forms carry the flags of a curve in both source groups, and the neutral elements are
members. -/
structure Backend.Membership.FlagsSigns {B : Backend} (M : B.Membership) : Prop where
  g1 : B.g1.FlagsSigns M.g1
  g2 : B.g2.FlagsSigns M.g2
  identity_g1 : M.g1 B.g1.identity
  identity_g2 : M.g2 B.g2.identity

/-- The elements of the groups of a backend over the curves. -/
inductive Backend.Membership.OnCurves : {B : Backend} → B.Membership → Prop
  /-- Target group elements have short encodings. -/
  | torus (M : Torus.Maps) : OnCurves (torusMembership M)
  /-- Target group elements have full encodings. -/
  | coefficient : OnCurves coefficientMembership

/-- The elements of the groups of a backend. -/
inductive Backend.Membership.Supported : {B : Backend} → B.Membership → Prop
  /-- The backend is over the curves. -/
  | curves {B : Backend} {M : B.Membership} : M.OnCurves → Supported M
  /-- The backend is the exponent model. -/
  | exponent : Supported exponentMembership

/-! ## Compressed forms -/

namespace Bls12

variable {F : Type} [Field F] [DecidableEq F] {group : Group} {C : SourceCurve F}
variable [C.LawfulCoordinates] [C.LawfulRoots] [Point.SmoothCurve C.b]
variable {hash : Bytes → Bytes → Point F} {report : Report} {reader : Bytes → Option (Point F)}
variable {multiple : ℕ → Point F → Point F} {random : Draw (Point F)}

theorem sourceGroup_compressesExactly :
    let G := sourceGroup group C hash report reader multiple random
    CodesExactly G.toCompressed G.ofCompressed C.Member G.compressedLength :=
  Report.read_codesExactly (fun _ ↦ C.length_toCompressed _) SourceCurve.ofCompressed?_eq_some_iff

theorem sourceGroup_flagsSigns :
    (sourceGroup group C hash report reader multiple random).FlagsSigns C.Member where
  toCompressed_identity := rfl
  toCompressed_neg hmember hne := SourceCurve.toCompressed_neg hmember hne

end Bls12

theorem exponentMembership_compressesExactly : exponentMembership.CompressesExactly :=
  ⟨residues_codesExactly (fun _ ↦ rfl) rfl exponentMember,
    residues_codesExactly (fun _ ↦ rfl) rfl exponentMember⟩

namespace Backend.Membership

variable {B : Backend} {M : B.Membership}

theorem Supported.compressesExactly (h : M.Supported) : M.CompressesExactly := by
  rcases h with (M | _) | _
  · exact ⟨sourceGroup_compressesExactly, sourceGroup_compressesExactly⟩
  · exact ⟨sourceGroup_compressesExactly, sourceGroup_compressesExactly⟩
  · exact exponentMembership_compressesExactly

theorem OnCurves.flagsSigns (h : M.OnCurves) : M.FlagsSigns := by
  rcases h with M | _ <;>
    exact ⟨sourceGroup_flagsSigns, sourceGroup_flagsSigns, SourceCurve.member_infinity,
      SourceCurve.member_infinity⟩

/-! ## Full forms -/

theorem Supported.readsBack (h : M.Supported) : M.ReadsBack := by
  rcases h with (M | _) | _
  · exact torusMembership_readsBack M
  · exact coefficientMembership_readsBack
  · exact exponentMembership_readsBack

end Backend.Membership

end BilinearGroups
