import BilinearGroups.Backend.Curve
import BilinearGroups.Backend.ExponentModel
import BilinearGroups.Proofs.Bls12.PointEncoding
import BilinearGroups.Proofs.Bls12.TargetEncoding
import BilinearGroups.Proofs.Element.Membership

/-!
# Members and readers of the backends

The backends put readers of encodings behind a test of the length, and report a refusal in their own
ways. What they accept is what the reader accepts. Together with the accepted strings of each reader
this says, for every backend and group, which bytes are decoded to a value.
-/

namespace BilinearGroups

open Bls12

/-! ## Members -/

/-- The elements of the groups of the backend with short target encodings. -/
def torusMembership (M : Torus.Maps) : (torusBackendOver M).Membership where
  g1 := G1.curve.Member
  g2 := G2.curve.Member
  gt := TargetMember
  zr s := s.val < groupOrder

/-- The elements of the groups of the backend with full target encodings. -/
def coefficientMembership : coefficientBackend.Membership where
  g1 := G1.curve.Member
  g2 := G2.curve.Member
  gt := TargetMember
  zr s := s.val < groupOrder

/-- The exponent is a canonical residue, and `r` copies of it sum to zero. -/
def ExponentMember (a : Fr) : Prop := a.val < groupOrder ∧ groupOrder • a = 0

/-- The elements of the groups of the exponent model. -/
def exponentMembership : exponentModel.Membership where
  g1 := ExponentMember
  g2 := ExponentMember
  gt := ExponentMember
  zr s := s.val < groupOrder

/-- In the exponent model every value is an element of its group. -/
theorem exponentMember (a : Fr) : ExponentMember a :=
  ⟨a.isLt, by rw [nsmul_eq_mul, CharP.cast_eq_zero, zero_mul]⟩

/-! ## Exact codecs -/

/-- The strings that are read are the written forms of members, which all have one length. -/
structure CodesExactly {α : Type} (encode : α → Bytes) (decode : Bytes → Except BackendError α)
    (member : α → Prop) (length : ℕ) : Prop where
  length_encode {a : α} : member a → (encode a).length = length
  decode_eq_ok_iff {bs : Bytes} {a : α} : decode bs = .ok a ↔ member a ∧ encode a = bs

namespace CodesExactly

variable {α : Type} {encode : α → Bytes} {decode : Bytes → Except BackendError α}
variable {member : α → Prop} {length : ℕ}

/-- A member is read back from its written form. -/
theorem readsBack (h : CodesExactly encode decode member length) {a : α} (ha : member a) :
    (encode a).length = length ∧ decode (encode a) = .ok a :=
  ⟨h.length_encode ha, h.decode_eq_ok_iff.mpr ⟨ha, rfl⟩⟩

/-- Writing is a bijection from the members onto the strings that are read. -/
theorem bijOn (h : CodesExactly encode decode member length) :
    Set.BijOn encode {a | member a} {bs | ∃ a, decode bs = .ok a} := by
  refine ⟨fun a ha ↦ ⟨a, (h.readsBack ha).2⟩, ?_, ?_⟩
  · intro a ha b hb hbytes
    have hread := (h.readsBack ha).2
    rw [hbytes, (h.readsBack hb).2] at hread
    exact (Except.ok.inj hread).symm
  · rintro bs ⟨a, ha⟩
    exact ⟨a, h.decode_eq_ok_iff.mp ha⟩

end CodesExactly

/-! ## Readers -/

namespace Bls12

theorem Report.read_eq_ok_iff {α : Type} {report : Report} {length : ℕ}
    {wrongLength wrongValue : BackendError} {reader : Bytes → Option α} {bs : Bytes} {a : α} :
    report.read length wrongLength wrongValue reader bs = .ok a ↔
      bs.length = length ∧ reader bs = some a := by
  unfold Report.read
  split_ifs with hlength
  · cases report <;> simp [hlength]
  · cases reader bs <;> simp [of_not_not hlength]

/-- A reader that is exact stays so behind a test of the length. -/
theorem Report.read_codesExactly {α : Type} {report : Report} {length : ℕ}
    {wrongLength wrongValue : BackendError} {reader : Bytes → Option α} {encode : α → Bytes}
    {member : α → Prop} (hlength : ∀ {a}, member a → (encode a).length = length)
    (hreader : ∀ {bs a}, reader bs = some a ↔ member a ∧ encode a = bs) :
    CodesExactly encode (report.read length wrongLength wrongValue reader) member length where
  length_encode := hlength
  decode_eq_ok_iff {bs a} := by
    rw [Report.read_eq_ok_iff, hreader]
    constructor
    · exact And.right
    · rintro ⟨ha, rfl⟩
      exact ⟨hlength ha, ha, rfl⟩

/-- A source group reads full forms of the right length by its reader. -/
theorem sourceGroup_ofUncompressed_iff {F : Type} [DecidableEq F] [Zero F] [Add F] [Sub F]
    [Neg F] [Mul F] [Inv F] {group : Group} {C : SourceCurve F} {hash : Bytes → Bytes → Point F}
    {report : Report} {reader : Bytes → Option (Point F)} {multiple : ℕ → Point F → Point F}
    {random : Draw (Point F)} {bs : Bytes} {P : Point F} :
    (sourceGroup group C hash report reader multiple random).ofUncompressed bs = .ok P ↔
      bs.length = C.uncompressedLength ∧ reader bs = some P :=
  Report.read_eq_ok_iff

theorem sourceGroup_ofUncompressed_congr {F : Type} [DecidableEq F] [Zero F] [Add F] [Sub F]
    [Neg F] [Mul F] [Inv F] {group : Group} {C : SourceCurve F} {hash : Bytes → Bytes → Point F}
    {report : Report} {reader : Bytes → Option (Point F)} {multiple : ℕ → Point F → Point F}
    {random : Draw (Point F)} {bs bs' : Bytes} (hlength : bs.length = bs'.length)
    (h : reader bs = reader bs') :
    (sourceGroup group C hash report reader multiple random).ofUncompressed bs
      = (sourceGroup group C hash report reader multiple random).ofUncompressed bs' := by
  show report.read _ _ _ reader bs = report.read _ _ _ reader bs'
  unfold Report.read
  rw [hlength, h]

theorem sourceGroup_ofCompressed_iff {F : Type} [DecidableEq F] [Zero F] [Add F] [Sub F]
    [Neg F] [Mul F] [Inv F] {group : Group} {C : SourceCurve F} {hash : Bytes → Bytes → Point F}
    {report : Report} {reader : Bytes → Option (Point F)} {multiple : ℕ → Point F → Point F}
    {random : Draw (Point F)} {bs : Bytes} {P : Point F} :
    (sourceGroup group C hash report reader multiple random).ofCompressed bs = .ok P ↔
      bs.length = C.compressedLength ∧ C.ofCompressed? bs = some P :=
  Report.read_eq_ok_iff

theorem targetGroup_ofBytes_iff {generator : Fp12} {length : ℕ} {report : Report}
    {toBytes : Fp12 → Bytes} {reader : Bytes → Option Fp12} {random : Draw Fp12} {bs : Bytes}
    {f : Fp12} :
    (targetGroup generator length report toBytes reader random).ofBytes bs = .ok f ↔
      bs.length = length ∧ reader bs = some f :=
  Report.read_eq_ok_iff

/-- A scalar has exactly one encoding. -/
theorem scalarOfBytes_eq_ok_iff {bs : Bytes} {a : Fr} :
    scalarOfBytes bs = .ok a ↔ bs = Bytes.ofNatBE scalarWidth a.val := by
  have hfits : a.val < 256 ^ scalarWidth := a.isLt.trans (by decide)
  unfold scalarOfBytes
  split_ifs with hlength
  · simp only [false_iff]
    rintro rfl
    exact hlength (Bytes.length_ofNatBE _ _)
  · rw [← Bytes.toNatBE_eq_iff (of_not_not hlength) hfits, ← @eq_comm _ a.val,
      ← Residue.ofNat?_eq_some_iff]
    cases Residue.ofNat? groupOrder (Bytes.toNatBE bs) <;> simp

/-- What is written and read as residues is coded exactly, as every residue has its bytes. -/
theorem residues_codesExactly {encode : Fr → Bytes} {decode : Bytes → Except BackendError Fr}
    {member : Fr → Prop} (hencode : ∀ a, encode a = Bytes.ofNatBE scalarWidth a.val)
    (hdecode : decode = scalarOfBytes) (hmember : ∀ a, member a) :
    CodesExactly encode decode member scalarWidth where
  length_encode {a} _ := by rw [hencode, Bytes.length_ofNatBE]
  decode_eq_ok_iff {bs a} := by
    rw [hdecode, scalarOfBytes_eq_ok_iff, hencode, eq_comm]
    exact ⟨fun h ↦ ⟨hmember a, h⟩, And.right⟩

end Bls12

end BilinearGroups
