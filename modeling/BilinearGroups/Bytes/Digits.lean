import Mathlib.Algebra.Order.Ring.Nat
import Mathlib.Tactic.Ring
import BilinearGroups.Bytes

/-!
# Digits of fixed-width integers

An integer that fits a width is read back from its digits, and every string of bytes is the string
of digits of the integer it spells. Each direction is an induction on the width, least significant
digit first.
-/

namespace BilinearGroups.Bytes

theorem toNatLE_lt (bs : Bytes) : toNatLE bs < 256 ^ bs.length := by
  induction bs with
  | nil => simp [toNatLE]
  | cons b bs ih =>
    have hb := b.toNat_lt
    simp only [toNatLE, List.length_cons, Nat.pow_succ]
    omega

theorem toNatLE_ofNatLE {width n : Nat} (h : n < 256 ^ width) :
    toNatLE (ofNatLE width n) = n := by
  induction width generalizing n with
  | zero => simp_all [toNatLE, ofNatLE]
  | succ width ih =>
    have hq : n / 256 < 256 ^ width := by
      rw [Nat.pow_succ] at h
      exact Nat.div_lt_of_lt_mul (by omega)
    simp only [ofNatLE, toNatLE, ih hq, UInt8.toNat_ofNat']
    omega

theorem ofNatLE_toNatLE (bs : Bytes) : ofNatLE bs.length (toNatLE bs) = bs := by
  induction bs with
  | nil => rfl
  | cons b bs ih =>
    have hb := b.toNat_lt
    have hq : (b.toNat + 256 * toNatLE bs) / 256 = toNatLE bs := by omega
    have hd : UInt8.ofNat (b.toNat + 256 * toNatLE bs) = b := by
      apply UInt8.toNat_inj.mp
      simp only [UInt8.toNat_ofNat']
      omega
    simp only [toNatLE, List.length_cons, ofNatLE, hq, hd, ih]

/-- A string of a width spells an integer that fits the width exactly if it is its string of
digits. -/
theorem toNatLE_eq_iff {bs : Bytes} {width n : Nat} (hbs : bs.length = width)
    (hn : n < 256 ^ width) : toNatLE bs = n ↔ bs = ofNatLE width n := by
  subst hbs
  constructor
  · rintro rfl
    exact (ofNatLE_toNatLE bs).symm
  · intro h
    rw [h, toNatLE_ofNatLE hn]

/-! ## The other order -/

theorem toNatBE_eq_iff {bs : Bytes} {width n : Nat} (hbs : bs.length = width)
    (hn : n < 256 ^ width) : toNatBE bs = n ↔ bs = ofNatBE width n := by
  rw [toNatBE, toNatLE_eq_iff (by rw [List.length_reverse, hbs]) hn, ofNatBE, List.reverse_eq_iff]

theorem toNatLE_append (bs cs : Bytes) :
    toNatLE (bs ++ cs) = toNatLE bs + 256 ^ bs.length * toNatLE cs := by
  induction bs with
  | nil => simp [toNatLE]
  | cons b bs ih =>
    simp only [List.cons_append, toNatLE, ih, List.length_cons, Nat.pow_succ]
    ring

/-- The first byte counts most. -/
theorem toNatBE_cons (b : UInt8) (bs : Bytes) :
    toNatBE (b :: bs) = toNatBE bs + 256 ^ bs.length * b.toNat := by
  simp [toNatBE, toNatLE_append, toNatLE]

end BilinearGroups.Bytes
