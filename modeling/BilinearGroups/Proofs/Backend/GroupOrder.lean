import BilinearGroups.Proofs.Backend.ModuleLaws

/-!
# The bytes of the group order

The order of the groups is nowhere written down. It is found from the encoding of `-1`, the largest
scalar, by counting one up: the last byte grows, and where it passes `0xff` the carry goes on to the
bytes before it.

Counting up is exact for every string: what is left over at the front is worth as much as all the
values of that width. The carry runs through the bytes `0xff` at the end, which start again at zero,
and is taken up by the byte before them; what stands before that byte stays as it is.

So where the largest encoding is not all `0xff`, the string that results spells the modulus at the
same width. Of the scalars this needs only that they are encoded as integers below the modulus and
that one and its negative are those of the integers modulo it (`HasModulus`). Whether the modulus is
a prime does not matter.
-/

namespace BilinearGroups

open Bls12
open Bytes (toNatBE)

/-! ## One byte more -/

/-- A byte below `0xff` grows by one. -/
theorem Bytes.toNat_add_one {b : UInt8} (hb : b ≠ 0xff) : (b + 1).toNat = b.toNat + 1 := by
  have hne : b.toNat ≠ 255 := fun h ↦ hb (UInt8.toNat_inj.mp h)
  have hlt := b.toNat_lt
  rw [UInt8.toNat_add, Nat.mod_eq_of_lt (by simp; omega)]
  rfl

namespace ScalarField

section Counting

variable {bs : Bytes} (b : UInt8)

/-- A byte is counted up if a carry comes out of the bytes after it. -/
theorem increment_cons_of_carry (h : (increment bs).2 = true) :
    increment (b :: bs) = ((b + 1) :: (increment bs).1, b == 0xff) := by
  rw [increment]
  split <;> simp_all

/-- A byte stays if no carry comes out of the bytes after it. -/
theorem increment_cons_of_no_carry (h : (increment bs).2 = false) :
    increment (b :: bs) = (b :: (increment bs).1, false) := by
  rw [increment]
  split <;> simp_all

@[simp] theorem length_increment (bs : Bytes) : (increment bs).1.length = bs.length := by
  induction bs with
  | nil => rfl
  | cons b bs ih =>
    cases hcarry : (increment bs).2 with
    | true => rw [increment_cons_of_carry b hcarry, List.length_cons, ih, List.length_cons]
    | false => rw [increment_cons_of_no_carry b hcarry, List.length_cons, ih, List.length_cons]

/-! ## The value -/

/-- The value grows by one; a carry that is left over stands for `256 ^ length`. -/
theorem toNatBE_increment (bs : Bytes) :
    toNatBE (increment bs).1 + (if (increment bs).2 then 256 ^ bs.length else 0)
      = toNatBE bs + 1 := by
  induction bs with
  | nil => rfl
  | cons b bs ih =>
    cases hcarry : (increment bs).2 with
    | true =>
      -- The bytes after the first have started again, and the carry is at the first byte.
      rw [hcarry, if_pos rfl] at ih
      rw [increment_cons_of_carry b hcarry, Bytes.toNatBE_cons, Bytes.toNatBE_cons,
        length_increment, List.length_cons, Nat.pow_succ]
      by_cases hb : b = 0xff
      · subst hb
        have hzero : ((0xff : UInt8) + 1).toNat = 0 := rfl
        have hmax : (0xff : UInt8).toNat = 255 := rfl
        simp only [hzero, hmax, beq_self_eq_true, if_true]
        omega
      · rw [Bytes.toNat_add_one hb, beq_eq_false_iff_ne.mpr hb, Nat.mul_add]
        simp only [Bool.false_eq_true, if_false]
        omega
    | false =>
      rw [hcarry, if_neg Bool.false_ne_true] at ih
      rw [increment_cons_of_no_carry b hcarry, Bytes.toNatBE_cons, Bytes.toNatBE_cons,
        length_increment, if_neg Bool.false_ne_true]
      omega

/-- Below the largest value of the width there is no carry left over. -/
theorem toNatBE_increment_of_lt {bs : Bytes} (h : toNatBE bs + 1 < 256 ^ bs.length) :
    toNatBE (increment bs).1 = toNatBE bs + 1 := by
  have hsum := toNatBE_increment bs
  split_ifs at hsum
  · omega
  · exact hsum

/-! ## Where the carry stops -/

/-- What stands before a string that leaves no carry stays as it is. -/
theorem increment_append_of_no_carry (h : (increment bs).2 = false) (front : Bytes) :
    increment (front ++ bs) = (front ++ (increment bs).1, false) := by
  induction front with
  | nil => exact Prod.ext rfl h
  | cons b front ih =>
    have hcarry : (increment (front ++ bs)).2 = false := congrArg Prod.snd ih
    rw [List.cons_append, increment_cons_of_no_carry b hcarry, ih]
    rfl

/-- The carry runs through bytes `0xff`, which start again. -/
theorem increment_replicate (k : ℕ) :
    increment (List.replicate k 0xff) = (List.replicate k 0, true) := by
  induction k with
  | zero => rfl
  | succ k ih =>
    have hcarry : (increment (List.replicate k 0xff)).2 = true := congrArg Prod.snd ih
    rw [List.replicate_succ, increment_cons_of_carry 0xff hcarry, ih]
    rfl

/-- A byte below `0xff` takes up the carry of the bytes `0xff` at the end of a string, and the bytes
before it stay. -/
theorem increment_append_cons_replicate (front : Bytes) {b : UInt8} (hb : b ≠ 0xff) (k : ℕ) :
    increment (front ++ b :: List.replicate k 0xff)
      = (front ++ (b + 1) :: List.replicate k 0, false) := by
  have hend : increment (b :: List.replicate k 0xff) = ((b + 1) :: List.replicate k 0, false) := by
    have hcarry : (increment (List.replicate k 0xff)).2 = true :=
      congrArg Prod.snd (increment_replicate k)
    rw [increment_cons_of_carry b hcarry, increment_replicate, beq_eq_false_iff_ne.mpr hb]
  rw [increment_append_of_no_carry (congrArg Prod.snd hend), hend]

/-- A string that is not all `0xff` has a last byte below it. -/
theorem exists_append_cons_replicate (h : ∃ b ∈ bs, b ≠ 0xff) :
    ∃ (front : Bytes) (b : UInt8) (k : ℕ), b ≠ 0xff ∧ bs = front ++ b :: List.replicate k 0xff := by
  induction bs with
  | nil =>
    obtain ⟨b, hb, -⟩ := h
    cases hb
  | cons c bs ih =>
    by_cases hrest : ∃ b ∈ bs, b ≠ 0xff
    · obtain ⟨front, b, k, hb, rfl⟩ := ih hrest
      exact ⟨c :: front, b, k, hb, rfl⟩
    · -- The later bytes are all `0xff`, so that the first one is the last below it.
      have hall : bs = List.replicate bs.length 0xff :=
        List.eq_replicate_iff.mpr ⟨rfl, fun b hb ↦ by_contra fun hne ↦ hrest ⟨b, hb, hne⟩⟩
      obtain ⟨b, hb, hne⟩ := h
      obtain rfl | hb := List.mem_cons.mp hb
      · exact ⟨[], b, bs.length, hne, congrArg (b :: ·) hall⟩
      · exact absurd ⟨b, hb, hne⟩ hrest

/-- A string that is not all `0xff` is counted up exactly. -/
theorem toNatBE_increment_of_exists_ne (h : ∃ b ∈ bs, b ≠ 0xff) :
    toNatBE (increment bs).1 = toNatBE bs + 1 := by
  have hcarry : (increment bs).2 = false := by
    obtain ⟨front, b, k, hb, rfl⟩ := exists_append_cons_replicate h
    rw [increment_append_cons_replicate front hb]
  have hsum := toNatBE_increment bs
  rwa [hcarry, if_neg Bool.false_ne_true, Nat.add_zero] at hsum

end Counting

/-! ## The order -/

section Order

variable {S : Type} {F : ScalarField S} {width m : ℕ}

/-- The scalars are encoded as integers below `m`, each at the given width, and one and the
negatives are those of the integers modulo `m`. -/
structure HasModulus (F : ScalarField S) (width m : ℕ) : Prop where
  length_toBytes (a : S) : (F.toBytes a).length = width
  value_lt (a : S) : F.value a < m
  one : (F.value F.one : ZMod m) = 1
  neg (a : S) : (F.value (F.neg a) : ZMod m) = -F.value a

/-- Scalars that are encoded by the least representatives of their classes have the modulus of the
classes. -/
theorem HasModulus.of_residues [Modulus m] (φ : S → Residue m) (hwidth : m ≤ 256 ^ width)
    (htoBytes : ∀ a, F.toBytes a = Bytes.ofNatBE width (φ a).val)
    (hone : φ F.one = 1) (hneg : ∀ a, φ (F.neg a) = -φ a) : F.HasModulus width m := by
  have hlength : ∀ a, (F.toBytes a).length = width := fun a ↦ by
    rw [htoBytes, Bytes.length_ofNatBE]
  have hvalue : ∀ a, F.value a = (φ a).val := fun a ↦
    (Bytes.toNatBE_eq_iff (hlength a) ((φ a).isLt.trans_le hwidth)).mpr (htoBytes a)
  refine ⟨hlength, fun a ↦ ?_, ?_, fun a ↦ ?_⟩
  · rw [hvalue]
    exact (φ a).isLt
  · rw [hvalue, hone]
    exact Residue.toZMod_one
  · rw [hvalue, hvalue, hneg]
    exact Residue.toZMod_neg (φ a)

/-- The encoding of `-1` spells the largest integer below the modulus. -/
theorem HasModulus.value_neg_one (hF : F.HasModulus width m) : F.value (F.neg F.one) + 1 = m := by
  have hzero : ((F.value (F.neg F.one) + 1 : ℕ) : ZMod m) = 0 := by
    rw [Nat.cast_add, Nat.cast_one, hF.neg, hF.one, neg_add_cancel]
  have hdvd : m ∣ F.value (F.neg F.one) + 1 := (ZMod.natCast_eq_zero_iff _ _).mp hzero
  exact Nat.le_antisymm (hF.value_lt _) (Nat.le_of_dvd (Nat.succ_pos _) hdvd)

/-- At a width that has room for the modulus the order is the modulus. -/
theorem HasModulus.toNatBE_orderBytes (hF : F.HasModulus width m) (hwidth : m < 256 ^ width) :
    toNatBE F.orderBytes = m := by
  have hroom : toNatBE (F.toBytes (F.neg F.one)) + 1 < 256 ^ (F.toBytes (F.neg F.one)).length := by
    rw [hF.length_toBytes]
    exact hF.value_neg_one.trans_lt hwidth
  exact (toNatBE_increment_of_lt hroom).trans hF.value_neg_one

theorem HasModulus.orderBytes_eq (hF : F.HasModulus width m) (hwidth : m < 256 ^ width) :
    F.orderBytes = Bytes.ofNatBE width m := by
  have hlength : F.orderBytes.length = width := by
    rw [orderBytes, length_increment, hF.length_toBytes]
  exact (Bytes.toNatBE_eq_iff hlength hwidth).mp (hF.toNatBE_orderBytes hwidth)

theorem IsResidueField.hasModulus (hF : F.IsResidueField) :
    F.HasModulus scalarWidth groupOrder :=
  .of_residues F.residue (by decide) hF.toBytes hF.one hF.neg

/-- The order of residues is the order of the groups at the width of a scalar. -/
theorem IsResidueField.orderBytes_eq (hF : F.IsResidueField) :
    F.orderBytes = Bytes.ofNatBE scalarWidth groupOrder :=
  hF.hasModulus.orderBytes_eq (by decide)

/-- The residues modulo any integer at any width, of which a residue is drawn from as many words as
the integer has. -/
def residues (m width : ℕ) [Modulus m] : ScalarField (Residue m) where
  byteLength := width
  zero := 0
  one := 1
  add := (· + ·)
  sub := (· - ·)
  mul := (· * ·)
  neg := (- ·)
  inv? a := if m.Coprime a.val then some a⁻¹ else none
  pow a e := combineDigits (· * ·) 1 a e.digits
  toBytes a := Bytes.ofNatBE width a.val
  ofBytes bs :=
    if bs.length ≠ width then .error .scalarLength
    else (Residue.ofNat? m (toNatBE bs)).elim (.error .scalarValue) .ok
  ofUInt64 n := Residue.ofNat m n.toNat
  reduceWide bs := Residue.ofNat m (Bytes.toNatLE bs)
  random := Draw.residue m (m.log2 / 64 + 1) (m.log2 + 1)
  decEq := inferInstance

theorem residues_hasModulus [Modulus m] (hwidth : m ≤ 256 ^ width) :
    (residues m width).HasModulus width m :=
  .of_residues id hwidth (fun _ ↦ rfl) rfl fun _ ↦ rfl

end Order

end ScalarField

/-! ## Contexts -/

variable {B : Backend}

/-- A context that is built keeps the order that the scalars have. -/
theorem Context.groupOrder_of_create {c : Context B} {number : ℕ} {p : Parameters}
    (hc : create B number p = .ok c) (g : Group) : c.groupOrder g = B.scalars.orderBytes := by
  unfold create at hc
  split at hc <;> cases hc
  rfl

namespace Backend.Membership.Supported

variable {M : B.Membership} (hM : M.Supported)

include hM

theorem byteLength_scalars : B.scalars.byteLength = scalarWidth := by
  rcases hM with (M | _) | _ <;> rfl

/-- The scalars of all backends have the order of the groups as their modulus. -/
theorem scalars_hasModulus : B.scalars.HasModulus B.scalars.byteLength groupOrder := by
  rw [hM.byteLength_scalars]
  exact hM.moduleLaws.scalars.hasModulus

end Backend.Membership.Supported

/-- **The order is counted exactly.** Counting up starts the bytes `0xff` at the end of a string
again, however many there are, adds one to the byte before them and leaves all before that one as it
is; so any string that is not all `0xff` becomes the string of the same length whose value is one
more. Hence the order of scalars of any modulus, encoded as the integers below it at a width that
has room for it, is the modulus at that width, and so it is in every context that is built over
them. The scalars of all backends are encoded so, with the order of the groups as their modulus. -/
theorem order_counted_exactly :
    (∀ (front : Bytes) (b : UInt8) (k : ℕ), b ≠ 0xff →
      ScalarField.increment (front ++ b :: List.replicate k 0xff)
        = (front ++ (b + 1) :: List.replicate k 0, false)) ∧
    (∀ bs : Bytes, (∃ b ∈ bs, b ≠ 0xff) →
      (∃ (front : Bytes) (b : UInt8) (k : ℕ),
        b ≠ 0xff ∧ bs = front ++ b :: List.replicate k 0xff) ∧
      (ScalarField.increment bs).1.length = bs.length ∧
      toNatBE (ScalarField.increment bs).1 = toNatBE bs + 1) ∧
    (∀ {S : Type} (F : ScalarField S) (m : ℕ), F.HasModulus F.byteLength m →
      m < 256 ^ F.byteLength →
        F.orderBytes = Bytes.ofNatBE F.byteLength m ∧ toNatBE F.orderBytes = m) ∧
    (∀ {B : Backend} (m : ℕ), B.scalars.HasModulus B.scalars.byteLength m →
      m < 256 ^ B.scalars.byteLength → ∀ {number : ℕ} {p : Parameters} {c : Context B},
        Context.create B number p = .ok c →
          ∀ g, c.groupOrder g = Bytes.ofNatBE (c.byteLength .zr) m) ∧
    ∀ {B : Backend} {M : B.Membership}, M.Supported →
      B.scalars.HasModulus B.scalars.byteLength groupOrder := by
  refine ⟨fun front b k hb ↦ ScalarField.increment_append_cons_replicate front hb k,
    fun bs h ↦ ⟨ScalarField.exists_append_cons_replicate h, ScalarField.length_increment bs,
      ScalarField.toNatBE_increment_of_exists_ne h⟩,
    fun F m hF hwidth ↦ ⟨hF.orderBytes_eq hwidth, hF.toNatBE_orderBytes hwidth⟩,
    fun m hF hwidth _ _ _ hc g ↦ ?_, fun hM ↦ hM.scalars_hasModulus⟩
  rw [Context.groupOrder_of_create hc]
  exact hF.orderBytes_eq hwidth

instance : Modulus 65536 := ⟨by decide⟩

/-- The carry goes through two bytes. No field shows that, as a prime is not a multiple of 256, but
the residues modulo `2 ^ 16` at the width of three bytes do. The contexts over the curves have the
order of the groups. -/
theorem order_counted_exactly_carry :
    ScalarField.increment [0x12, 0x34, 0xff, 0xff] = ([0x12, 0x35, 0, 0], false) ∧
    toNatBE (ScalarField.increment [0x12, 0x34, 0xff, 0xff]).1 = 0x12350000 ∧
    (ScalarField.residues 65536 3).orderBytes = [1, 0, 0] ∧
    (Context.standard coefficientBackend).groupOrder .gt = Bytes.ofNatBE 32 groupOrder := by
  obtain ⟨hcarry, hstring, horder, hcontext, hbackends⟩ := order_counted_exactly
  have hcurves : coefficientMembership.Supported := .curves .coefficient
  have hresidues : (ScalarField.residues 65536 3).HasModulus 3 65536 :=
    ScalarField.residues_hasModulus (by decide)
  refine ⟨hcarry [0x12] 0x34 2 (by decide), ?_, ?_, ?_⟩
  · rw [(hstring [0x12, 0x34, 0xff, 0xff] ⟨0x34, by decide, by decide⟩).2.2]
    decide
  · rw [(horder (ScalarField.residues 65536 3) 65536 hresidues (by decide)).1]
    decide
  · exact hcontext groupOrder (hbackends hcurves) (by decide) (Context.create_default _) .gt

end BilinearGroups
