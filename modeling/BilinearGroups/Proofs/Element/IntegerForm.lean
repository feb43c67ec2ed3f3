import BilinearGroups.Proofs.Backend.GroupOrder
import BilinearGroups.Proofs.Element.CompressedForm
import BilinearGroups.Proofs.Element.Members
import BilinearGroups.Proofs.Element.Order

/-!
# Encodings as integers below the group order

A scalar is written as its integer, most significant byte first. The strings that are read are those
of the right length that come before the bytes of the group order, and the string is found again in
what is read. In the exponent model the other groups are scalars too, so the same is true of all its
encodings, the compressed ones of points included.

The length is looked at before the backend is asked, so the refusal of a wrong length is the same
over every backend, whatever its readers accept.
-/

namespace BilinearGroups

open Bls12
open Bytes (toNatBE)

/-- Strings of one length are in the order of the integers that they spell. -/
theorem Bytes.lt_iff_toNatBE_lt {as bs : Bytes} (h : as.length = bs.length) :
    as < bs ↔ toNatBE as < toNatBE bs := by
  rw [← Element.compareBytes_eq_lt_iff, Element.compareBytes_eq_compare h, Nat.compare_eq_lt]

/-! ## Scalars as integers -/

namespace ScalarField

variable {S : Type} {F : ScalarField S} {bs : Bytes} {a : S}

/-- The scalars under addition, with one as the distinguished element. -/
def addition (F : ScalarField S) : GroupOperations S := ⟨F.zero, F.one, F.add, F.neg⟩

/-- A string is read exactly if it is the encoding of a scalar, which is then the one that is
read. -/
def ReadsExactly (F : ScalarField S) : Prop :=
  ∀ (bs : Bytes) (a : S), F.ofBytes bs = .ok a ↔ F.toBytes a = bs

variable (hF : F.IsResidueField)

include hF

/-- As many copies of one as an integer says are its class. -/
theorem IsResidueField.residue_copies_one (n : ℕ) :
    F.residue (F.addition.copies n F.one) = (n : Fr) := by
  induction n with
  | zero => rw [Nat.cast_zero]; exact hF.zero
  | succ n ih =>
    rw [Nat.cast_succ, ← ih, ← hF.one]
    exact hF.add _ _

/-- A scalar is as many copies of one as its integer says. -/
theorem IsResidueField.eq_copies_value (a : S) : a = F.addition.copies (F.value a) F.one := by
  apply hF.bijective.1
  rw [hF.residue_copies_one, hF.value_eq, Residue.natCast_val]

theorem IsResidueField.length_toBytes (a : S) : (F.toBytes a).length = scalarWidth :=
  hF.hasModulus.length_toBytes a

/-- The encodings of scalars are the integers below the group order. -/
theorem IsResidueField.exists_toBytes_iff :
    (∃ a, F.toBytes a = bs) ↔ bs.length = scalarWidth ∧ toNatBE bs < groupOrder := by
  constructor
  · rintro ⟨a, rfl⟩
    exact ⟨hF.length_toBytes a, hF.value_lt a⟩
  · rintro ⟨hlength, hlt⟩
    obtain ⟨a, ha⟩ := hF.bijective.2 ⟨toNatBE bs, hlt⟩
    refine ⟨a, ?_⟩
    rw [hF.toBytes, ha]
    exact ((Bytes.toNatBE_eq_iff hlength (hlt.trans (by decide))).mp rfl).symm

end ScalarField

theorem plainScalars_readsExactly : plainScalars.ReadsExactly :=
  fun _ _ ↦ scalarOfBytes_eq_ok_iff.trans eq_comm

theorem Backend.Membership.Supported.scalars_readsExactly {B : Backend} {M : B.Membership}
    (h : M.Supported) : B.scalars.ReadsExactly := by
  rcases h with (M | _) | _ <;>
    exact fun _ _ ↦ scalarOfBytes_eq_ok_iff.trans eq_comm

/-! ## Elements as integers -/

variable {B : Backend} {c : Context B} {g : Group}

/-- The element is as many copies of the generator of its group as an integer says. The generator of
the scalars under addition is one. -/
def Element.HasCount (e : Element B) (n : ℕ) : Prop :=
  e.value = .of e.group ((B.operations e.group).copies n (B.operations e.group).generator)

/-- The encodings of the elements of a group are the strings of 32 bytes before the bytes of the
group order. A string is read as the element with the integer that it spells, and other lengths are
refused as such. -/
structure Context.CodesIntegers (c : Context B) (g : Group)
    (encode : Element B → Except Error Bytes) (decode : Bytes → Except Error (Element B)) :
    Prop where
  accepts (bs : Bytes) : (∃ e, decode bs = .ok e) ↔ bs.length = 32 ∧ bs < c.groupOrder g
  decoded {bs : Bytes} {e : Element B} :
    decode bs = .ok e → e.InGroup c g ∧ e.HasCount (toNatBE bs) ∧ encode e = .ok bs
  encoded {e : Element B} :
    e.InGroup c g → ∃ bs, encode e = .ok bs ∧ bs.length = 32 ∧ bs < c.groupOrder g
  wrongLength {bs : Bytes} : bs.length ≠ 32 → decode bs = .error (.wrongLength g 32 bs.length)

namespace Context

/-- A context that is built over residues has the order of the groups. -/
theorem groupOrder_eq_of_create (hB : B.scalars.IsResidueField) {number : ℕ} {p : Parameters}
    (hc : create B number p = .ok c) (g : Group) :
    c.groupOrder g = Bytes.ofNatBE scalarWidth Bls12.groupOrder := by
  rw [groupOrder_of_create hc, hB.orderBytes_eq]

/-- Elements that are scalars of a residue field under addition, written and read as these, are
coded as integers. -/
theorem codesIntegers_of_scalars {F : ScalarField (B.Carrier g)} (hF : F.IsResidueField)
    (hreads : F.ReadsExactly) (hoperations : B.operations g = F.addition)
    (horder : c.groupOrder g = Bytes.ofNatBE scalarWidth Bls12.groupOrder)
    {encode : Element B → Except Error Bytes} {decode : Bytes → Except Error (Element B)}
    (hencode : ∀ p, encode ⟨c, .of g p⟩ = .ok (F.toBytes p))
    (hdecode : ∀ bs, decode bs = do
      Element.checkLength g scalarWidth bs
      return ⟨c, .of g (← Element.decoded g (F.ofBytes bs))⟩) :
    c.CodesIntegers g encode decode := by
  have horderLength : (c.groupOrder g).length = scalarWidth := by
    rw [horder, Bytes.length_ofNatBE]
  have horderNat : toNatBE (c.groupOrder g) = Bls12.groupOrder :=
    (Bytes.toNatBE_eq_iff horderLength (by decide)).mpr horder
  have hbelow (bs : Bytes) : (∃ p, F.toBytes p = bs) ↔ bs.length = 32 ∧ bs < c.groupOrder g := by
    rw [hF.exists_toBytes_iff]
    refine and_congr_right fun hlength ↦ ?_
    rw [Bytes.lt_iff_toNatBE_lt (hlength.trans horderLength.symm), horderNat]
  have hread {bs : Bytes} {e : Element B} :
      decode bs = .ok e ↔ ∃ p, F.toBytes p = bs ∧ e = ⟨c, .of g p⟩ := by
    rw [hdecode]
    constructor
    · intro h
      obtain ⟨⟨⟩, -, h⟩ := exists_of_bind_eq_ok h
      obtain ⟨p, hp, h⟩ := exists_of_bind_eq_ok h
      exact ⟨p, (hreads bs p).mp (Element.decoded_eq_ok_iff.mp hp), (Except.ok.inj h).symm⟩
    · rintro ⟨p, rfl, rfl⟩
      have hcheck : Element.checkLength g scalarWidth (F.toBytes p) = .ok () :=
        if_neg (not_not.mpr (hF.length_toBytes p))
      rw [hcheck, Element.decoded_eq_ok_iff.mpr ((hreads _ p).mpr rfl)]
      rfl
  refine ⟨fun bs ↦ ?_, fun {bs e} h ↦ ?_, fun {e} he ↦ ?_, fun {bs} h ↦ ?_⟩
  · rw [← hbelow]
    constructor
    · rintro ⟨e, he⟩
      obtain ⟨p, hp, -⟩ := hread.mp he
      exact ⟨p, hp⟩
    · rintro ⟨p, hp⟩
      exact ⟨_, hread.mpr ⟨p, hp, rfl⟩⟩
  · obtain ⟨p, rfl, rfl⟩ := hread.mp h
    have hgroup : (⟨c, .of g p⟩ : Element B).group = g := Value.group_of p
    refine ⟨⟨rfl, hgroup⟩, ?_, hencode p⟩
    rw [Element.HasCount, hgroup, hoperations]
    exact congrArg (Value.of g) (hF.eq_copies_value p)
  · obtain ⟨c', v⟩ := e
    obtain rfl := he.context
    obtain ⟨p, rfl⟩ := Value.exists_of he.group
    exact ⟨_, hencode p, (hbelow _).mp ⟨p, rfl⟩⟩
  · have hcheck : Element.checkLength g scalarWidth bs = .error (.wrongLength g 32 bs.length) :=
      if_pos h
    rw [hdecode, hcheck]
    rfl

end Context

/-! ## The groups that are coded as integers -/

section Canonical

variable {F : ScalarField (B.Carrier g)} (hF : F.IsResidueField) (hreads : F.ReadsExactly)
variable (hoperations : B.operations g = F.addition)
variable (horder : c.groupOrder g = Bytes.ofNatBE scalarWidth Bls12.groupOrder)

include hF hreads hoperations horder

/-- The canonical encodings of a group are integers if they are those of scalars. -/
theorem Context.codesIntegers_canonical (hlength : c.byteLength g = scalarWidth)
    (htoBytes : ∀ p, (Value.of g p).toBytes = F.toBytes p)
    (hofBytes : ∀ bs, Value.ofBytes bs g = (F.ofBytes bs).map (Value.of g)) :
    c.CodesIntegers g (fun e ↦ .ok e.toBytes) (Element.ofBytes c g) := by
  refine codesIntegers_of_scalars hF hreads hoperations horder
    (fun p ↦ congrArg Except.ok (htoBytes p)) fun bs ↦ ?_
  rw [Element.ofBytes_eq, Element.readValue, hlength, hofBytes]
  cases Element.checkLength g scalarWidth bs with
  | error reason => rfl
  | ok => cases F.ofBytes bs <;> rfl

/-- The compressed encodings of a group are integers if they are those of scalars. -/
theorem Context.codesIntegers_compressed (hlength : c.compressedByteLength g = .ok scalarWidth)
    (htoCompressed : ∀ p, (Value.of g p).toCompressed = .ok (F.toBytes p))
    (hofCompressed : ∀ bs, Value.readCompressed bs g
      = (Element.decoded g (F.ofBytes bs)).map (Value.of g)) :
    c.CodesIntegers g Element.toCompressedBytes (Element.ofCompressedBytes c g) := by
  refine codesIntegers_of_scalars hF hreads hoperations horder htoCompressed fun bs ↦ ?_
  have hfresh : (Element.fresh c g).compressedByteLength = .ok scalarWidth := by
    rw [Element.compressedByteLength, Element.group_fresh]
    exact hlength
  rw [Element.ofCompressedBytes, Element.setFromCompressedBytes_result, hfresh,
    Element.group_fresh, hofCompressed]
  show (do Element.checkLength g scalarWidth bs; _ : Except Error (Element B)) = _
  cases Element.checkLength g scalarWidth bs with
  | error reason => rfl
  | ok => cases F.ofBytes bs <;> rfl

end Canonical

theorem Backend.Membership.Supported.codesIntegers {M : B.Membership} (hM : M.Supported)
    (horder : c.groupOrder .zr = Bytes.ofNatBE scalarWidth Bls12.groupOrder) :
    c.CodesIntegers .zr (fun e ↦ .ok e.toBytes) (Element.ofBytes c .zr) := by
  exact Context.codesIntegers_canonical (g := .zr) (F := B.scalars) hM.moduleLaws.scalars
    hM.scalars_readsExactly rfl horder hM.byteLength_scalars (fun _ ↦ rfl) fun _ ↦ rfl

namespace ExponentModel

variable {c : Context exponentModel}
variable (horder : c.groupOrder g = Bytes.ofNatBE scalarWidth Bls12.groupOrder)

include horder

theorem codesIntegers : c.CodesIntegers g (fun e ↦ .ok e.toBytes) (Element.ofBytes c g) := by
  have hF := plainScalars_isResidueField
  have hreads := plainScalars_readsExactly
  cases g with
  | g1 =>
    exact Context.codesIntegers_canonical (B := exponentModel) (g := .g1) (F := plainScalars) hF
      hreads rfl horder rfl (fun _ ↦ rfl) fun _ ↦ rfl
  | g2 =>
    exact Context.codesIntegers_canonical (B := exponentModel) (g := .g2) (F := plainScalars) hF
      hreads rfl horder rfl (fun _ ↦ rfl) fun _ ↦ rfl
  | gt =>
    exact Context.codesIntegers_canonical (B := exponentModel) (g := .gt) (F := plainScalars) hF
      hreads rfl horder rfl (fun _ ↦ rfl) fun _ ↦ rfl
  | zr =>
    exact Context.codesIntegers_canonical (B := exponentModel) (g := .zr) (F := plainScalars) hF
      hreads rfl horder rfl (fun _ ↦ rfl) fun _ ↦ rfl

theorem codesIntegers_compressed (hg : g = .g1 ∨ g = .g2) :
    c.CodesIntegers g Element.toCompressedBytes (Element.ofCompressedBytes c g) := by
  have hF := plainScalars_isResidueField
  have hreads := plainScalars_readsExactly
  obtain rfl | rfl := hg
  · exact Context.codesIntegers_compressed (B := exponentModel) (g := .g1) (F := plainScalars) hF
      hreads rfl horder rfl (fun _ ↦ rfl) fun _ ↦ rfl
  · exact Context.codesIntegers_compressed (B := exponentModel) (g := .g2) (F := plainScalars) hF
      hreads rfl horder rfl (fun _ ↦ rfl) fun _ ↦ rfl

end ExponentModel

/-! ## Lengths -/

/-- The length of a canonical encoding is looked at before the backend reads it. -/
theorem Element.ofBytes_of_length_ne {bs : Bytes} (h : bs.length ≠ c.byteLength g) :
    ofBytes c g bs = .error (.wrongLength g (c.byteLength g) bs.length) := by
  have hcheck : checkLength g (c.byteLength g) bs
      = .error (.wrongLength g (c.byteLength g) bs.length) := if_pos h
  rw [ofBytes_eq, readValue, hcheck]
  rfl

/-- The length of a compressed encoding is looked at before the backend reads it. -/
theorem Element.ofCompressedBytes_of_length_ne {bs : Bytes} {n : ℕ}
    (hn : c.compressedByteLength g = .ok n) (h : bs.length ≠ n) :
    ofCompressedBytes c g bs = .error (.wrongLength g n bs.length) := by
  have hfresh : (fresh c g).compressedByteLength = .ok n := by
    rw [compressedByteLength, group_fresh]
    exact hn
  have hcheck : checkLength g n bs = .error (.wrongLength g n bs.length) := if_pos h
  rw [ofCompressedBytes, setFromCompressedBytes_result, hfresh, group_fresh]
  show (do checkLength g n bs; _ : Except Error (Element B)) = _
  rw [hcheck]
  rfl

/-- **Scalars are coded as the integers below the group order.** Over every backend and in every
context that is built, a string is read as a scalar exactly if it has 32 bytes and comes before the
bytes of the group order. The scalar is then the integer that the string spells and is written as
the string, and all scalars are written so. In the exponent model the same is true of the canonical
encodings in all groups and of the compressed encodings of points. Over any backend at all a string
of another length is refused, by an error that names both lengths. -/
theorem integers_coded_exactly :
    (∀ {B : Backend} {M : B.Membership}, M.Supported → ∀ {number : ℕ} {p : Parameters}
      {c : Context B}, Context.create B number p = .ok c →
        c.CodesIntegers .zr (fun e ↦ .ok e.toBytes) (Element.ofBytes c .zr)) ∧
    (∀ {number : ℕ} {p : Parameters} {c : Context exponentModel},
      Context.create exponentModel number p = .ok c → ∀ g,
        c.CodesIntegers g (fun e ↦ .ok e.toBytes) (Element.ofBytes c g) ∧
        (g = .g1 ∨ g = .g2 →
          c.CodesIntegers g Element.toCompressedBytes (Element.ofCompressedBytes c g))) ∧
    ∀ {B : Backend} (c : Context B) (g : Group) (bs : Bytes),
      (bs.length ≠ c.byteLength g →
        Element.ofBytes c g bs = .error (.wrongLength g (c.byteLength g) bs.length)) ∧
      (∀ n, c.compressedByteLength g = .ok n → bs.length ≠ n →
        Element.ofCompressedBytes c g bs = .error (.wrongLength g n bs.length)) ∧
      ∀ n, (Error.wrongLength g n bs.length).message =
        "decode error: " ++ g.name ++ " encoding must be " ++ toString n ++ " bytes, got "
          ++ toString bs.length := by
  refine ⟨fun hM _ _ _ hc ↦ ?_, fun hc g ↦ ?_, fun c g bs ↦ ⟨?_, fun n ↦ ?_, fun _ ↦ rfl⟩⟩
  · exact hM.codesIntegers (Context.groupOrder_eq_of_create hM.moduleLaws.scalars hc .zr)
  · have horder := Context.groupOrder_eq_of_create plainScalars_isResidueField hc g
    exact ⟨ExponentModel.codesIntegers horder, ExponentModel.codesIntegers_compressed horder⟩
  · exact Element.ofBytes_of_length_ne
  · exact Element.ofCompressedBytes_of_length_ne

/-- The largest scalar is read and the order of the groups is not; a compressed point of the
exponent model is read from the same bytes, and an encoding of no bytes is refused for its
length. -/
theorem integers_coded_exactly_boundary :
    let c := Context.standard coefficientBackend
    let largest := Bytes.ofNatBE 32 (groupOrder - 1)
    (∃ e, Element.ofBytes c .zr largest = .ok e ∧ e.HasCount (groupOrder - 1) ∧
      e.toBytes = largest) ∧
    (¬∃ e, Element.ofBytes c .zr (c.groupOrder .zr) = .ok e) ∧
    (∃ e, Element.ofCompressedBytes (.standard exponentModel) .g2 largest = .ok e) ∧
    Element.ofBytes (.standard torusBackend) .gt [] = .error (.wrongLength .gt 288 0) := by
  intro c largest
  have hcurves : coefficientMembership.Supported := .curves .coefficient
  obtain ⟨hscalars, hmodel, hlengths⟩ := integers_coded_exactly
  have hcodes := hscalars hcurves (Context.create_default coefficientBackend)
  have horder : c.groupOrder .zr = Bytes.ofNatBE 32 groupOrder :=
    Context.groupOrder_eq_of_create hcurves.moduleLaws.scalars (Context.create_default _) .zr
  have hbelow : largest.length = 32 ∧ largest < Bytes.ofNatBE 32 groupOrder := by decide
  have hlargest : toNatBE largest = groupOrder - 1 := by decide
  refine ⟨?_, ?_, ?_, (hlengths (.standard torusBackend) .gt []).1 (by decide)⟩
  · obtain ⟨e, he⟩ := (hcodes.accepts largest).mpr (by rwa [horder])
    obtain ⟨-, hcount, hbytes⟩ := hcodes.decoded he
    exact ⟨e, he, hlargest ▸ hcount, Except.ok.inj hbytes⟩
  · intro h
    exact List.lt_irrefl _ ((hcodes.accepts _).mp h).2
  · have hcompressed := (hmodel (Context.create_default exponentModel) .g2).2 (.inr rfl)
    refine (hcompressed.accepts largest).mpr ?_
    rwa [Context.groupOrder_eq_of_create plainScalars_isResidueField (Context.create_default _)]

end BilinearGroups
