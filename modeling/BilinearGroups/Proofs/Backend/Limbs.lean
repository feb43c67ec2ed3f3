import Mathlib.Algebra.Group.Basic
import Mathlib.Data.Nat.Bitwise
import BilinearGroups.Backend
import BilinearGroups.Bytes.Digits
import BilinearGroups.Proofs.Algebra.Multiple

/-!
# Powers by four words

A power that runs over the digits of four limbs is the power by their integer, whatever the monoid.

The limbs of an integer are filled byte by byte, from its lowest byte on. Before byte number `i` is
put in its place, the integer of the limbs is below `256 ^ i`: the bits where the byte goes are
still zero, so a bitwise or is a sum, and after it the bound holds for `i + 1`.
-/

namespace BilinearGroups

/-- In a monoid, running over digits raises to the integer that the same digits build up from
ones. -/
theorem combineDigits_pow {α : Type} [Monoid α] (a : α) (ds : List Bool) (n : ℕ) :
    combineDigits (· * ·) (a ^ n) a ds = a ^ combineDigits (· + ·) n 1 ds := by
  induction ds generalizing n with
  | nil => rfl
  | cons d ds ih =>
    cases d with
    | false =>
      refine Eq.trans ?_ (ih (n + n))
      rw [pow_add]
      rfl
    | true =>
      refine Eq.trans ?_ (ih (n + n + 1))
      rw [pow_succ, pow_add]
      rfl

namespace Limbs

/-- The integer of four words, written out. -/
theorem toNat_eq_sum (e : Limbs) : e.toNat =
    e.l0.toNat + 2 ^ 64 * e.l1.toNat + 2 ^ 128 * e.l2.toNat + 2 ^ 192 * e.l3.toNat := by
  simp only [toNat, UInt64.size]
  omega

/-- The digits of a limb shift the integer before them and add the limb. -/
theorem combineDigits_limbDigits (l : UInt64) (k n : ℕ) :
    combineDigits (· + ·) n 1 (limbDigits l k) = n * 2 ^ k + l.toNat % 2 ^ k := by
  induction k generalizing n with
  | zero => simp [limbDigits, combineDigits, Nat.mod_one]
  | succ k ih =>
    have hmod : l.toNat % 2 ^ (k + 1)
        = l.toNat % 2 ^ k + 2 ^ k * (l.toNat.testBit k).toNat := by
      rw [Nat.pow_succ, Nat.mod_mul, Nat.toNat_testBit]
    have hpow : 2 ^ (k + 1) = 2 ^ k + 2 ^ k := by rw [Nat.pow_succ, Nat.mul_two]
    cases hbit : l.toNat.testBit k with
    | false =>
      have hstep : combineDigits (· + ·) n 1 (limbDigits l (k + 1))
          = combineDigits (· + ·) (n + n) 1 (limbDigits l k) := by
        rw [limbDigits, hbit]
        rfl
      rw [hstep, ih, hmod, hbit, hpow, Nat.add_mul, Nat.mul_add, Bool.toNat_false, Nat.mul_zero,
        Nat.add_zero]
    | true =>
      have hstep : combineDigits (· + ·) n 1 (limbDigits l (k + 1))
          = combineDigits (· + ·) (n + n + 1) 1 (limbDigits l k) := by
        rw [limbDigits, hbit]
        rfl
      rw [hstep, ih, hmod, hbit, hpow, Nat.add_mul, Nat.add_mul, Nat.mul_add, Bool.toNat_true,
        Nat.mul_one, Nat.one_mul]
      omega

theorem combineDigits_digits (e : Limbs) : combineDigits (· + ·) 0 1 e.digits = e.toNat := by
  have happend : ∀ (n : ℕ) (ds ds' : List Bool), combineDigits (· + ·) n 1 (ds ++ ds')
      = combineDigits (· + ·) (combineDigits (· + ·) n 1 ds) 1 ds' := fun _ _ _ ↦
    List.foldl_append
  have h0 := e.l0.toNat_lt
  have h1 := e.l1.toNat_lt
  have h2 := e.l2.toNat_lt
  have h3 := e.l3.toNat_lt
  simp only [digits, happend, combineDigits_limbDigits, toNat, UInt64.size]
  omega

/-- Running over the digits of the limbs is the power by their integer. -/
theorem combineDigits_mul {α : Type} [Monoid α] (a : α) (e : Limbs) :
    combineDigits (· * ·) 1 a e.digits = a ^ e.toNat := by
  rw [← combineDigits_digits, ← combineDigits_pow, pow_zero]

/-- The lowest 256 bits of an integer. -/
def ofNat (n : ℕ) : Limbs :=
  ⟨UInt64.ofNat n, UInt64.ofNat (n >>> 64), UInt64.ofNat (n >>> 128), UInt64.ofNat (n >>> 192)⟩

theorem toNat_ofNat {n : ℕ} (h : n < 2 ^ 256) : (ofNat n).toNat = n := by
  simp only [ofNat, toNat, UInt64.toNat_ofNat', UInt64.size, Nat.shiftRight_eq_div_pow]
  omega

/-! ## Limbs from bytes -/

section Bytes

variable {bs : Bytes} {e : Limbs} {i n k : ℕ}

/-- A byte that is put above the bytes of a limb adds its value there: the shifted byte has no bit
in common with the limb, and none of its bits is lost. -/
theorem toNat_or_shiftLeft {l : UInt64} (hk : k < 8) (hl : l.toNat < 256 ^ k) (byte : UInt8) :
    (l ||| byte.toUInt64 <<< UInt64.ofNat (8 * k)).toNat = l.toNat + 256 ^ k * byte.toNat := by
  have hbyte := byte.toNat_lt
  have hpow : 256 ^ k = 2 ^ (8 * k) := by rw [Nat.pow_mul]
  have hshift : (UInt64.ofNat (8 * k)).toNat % 64 = 8 * k := by
    rw [UInt64.toNat_ofNat']
    omega
  have hfits : byte.toNat <<< (8 * k) < 2 ^ 64 := by
    have hle : 2 ^ (8 * k) ≤ 2 ^ 56 := Nat.pow_le_pow_right (by decide) (by omega)
    rw [Nat.shiftLeft_eq]
    calc byte.toNat * 2 ^ (8 * k) ≤ 255 * 2 ^ 56 := Nat.mul_le_mul (by omega) hle
      _ < 2 ^ 64 := by decide
  rw [UInt64.toNat_or, UInt64.toNat_shiftLeft, hshift, UInt8.toNat_toUInt64,
    Nat.mod_eq_of_lt hfits, Nat.or_comm, ← Nat.shiftLeft_add_eq_or_of_lt (hpow ▸ hl),
    Nat.shiftLeft_eq, hpow, Nat.mul_comm, Nat.add_comm]

/-- One byte: the limbs above the one that it goes to are zero, and this one has room for it. -/
theorem toNat_withByte (hi : i < 32) (he : e.toNat < 256 ^ i) (byte : UInt8) :
    (e.withByte i byte).toNat = e.toNat + 256 ^ i * byte.toNat := by
  have hk : i % 8 < 8 := Nat.mod_lt _ (by decide)
  have hpow : 256 ^ i = UInt64.size ^ (i / 8) * 256 ^ (i % 8) := by
    conv_lhs => rw [← Nat.div_add_mod i 8, Nat.pow_add, Nat.pow_mul]
  have hlimb : i / 8 = 0 ∨ i / 8 = 1 ∨ i / 8 = 2 ∨ i / 8 = 3 := by omega
  rw [hpow] at he ⊢
  simp only [withByte, toNat] at he ⊢
  obtain hlimb | hlimb | hlimb | hlimb := hlimb <;>
    simp only [hlimb, UInt64.size, Nat.reducePow, Nat.one_mul, Nat.mul_assoc] at he ⊢ <;>
    rw [toNat_or_shiftLeft hk (by omega)] <;>
    omega

/-- All bytes, by induction on them: the limbs hold the bytes before number `n`, and the others add
the integer that they spell above these. -/
theorem toNat_foldl_withByte (hn : n + k ≤ 32) (he : e.toNat < 256 ^ n) :
    (((bs.zipIdx n).take k).foldl (fun e b ↦ e.withByte b.2 b.1) e).toNat
      = e.toNat + 256 ^ n * Bytes.toNatLE (bs.take k) := by
  induction bs generalizing e n k with
  | nil => simp [Bytes.toNatLE]
  | cons b bs ih =>
    cases k with
    | zero => simp [Bytes.toNatLE]
    | succ k =>
      have hb := b.toNat_lt
      have hstep := toNat_withByte (by omega) he b
      have hbound : (e.withByte n b).toNat < 256 ^ (n + 1) := by
        have hle : 256 ^ n * b.toNat ≤ 256 ^ n * 255 := Nat.mul_le_mul_left _ (by omega)
        rw [hstep, Nat.pow_succ]
        omega
      rw [List.zipIdx_cons, List.take_succ_cons, List.foldl_cons, ih (by omega) hbound, hstep,
        List.take_succ_cons, Bytes.toNatLE]
      ring

theorem toNat_ofBytesBE (bs : Bytes) :
    (ofBytesBE bs).toNat = Bytes.toNatLE (bs.reverse.take 32) := by
  have hzero : (⟨0, 0, 0, 0⟩ : Limbs).toNat = 0 := rfl
  rw [ofBytesBE, toNat_foldl_withByte (by decide) (by decide), hzero]
  omega

theorem toNat_ofBytesBE_ofNatBE (h : n < 2 ^ 256) :
    (ofBytesBE (Bytes.ofNatBE 32 n)).toNat = n := by
  rw [toNat_ofBytesBE, Bytes.ofNatBE, List.reverse_reverse,
    List.take_of_length_le (Bytes.length_ofNatLE 32 n).le, Bytes.toNatLE_ofNatLE (by omega)]

end Bytes

end Limbs

end BilinearGroups
