import Mathlib.Algebra.CharP.Algebra
import Mathlib.Data.ZMod.Basic
import Mathlib.Tactic.LinearCombination
import Mathlib.Tactic.Ring
import BilinearGroups.Algebra
import BilinearGroups.Proofs.Algebra.Multiple

/-!
# Residues form a ring, and for a prime modulus a field

The operations on least representatives are compared with the integers modulo `m` by sending a
residue to the class of its representative. The map is injective, so every law is inherited from
there (`toZModEquiv` is the isomorphism).

Inverses are found by Euclid's algorithm on natural numbers. Its invariant (`Cofactors`) says that
the cofactors express the remainders with alternating signs and that they never exceed the modulus,
which is what makes the subtraction `m - t` for a negative sign exact.
-/

namespace BilinearGroups.Residue

variable {m : ℕ}

theorem ext {a b : Residue m} (h : a.val = b.val) : a = b := by
  cases a
  cases b
  cases h
  rfl

theorem ext_iff {a b : Residue m} : a = b ↔ a.val = b.val := ⟨congrArg val, Residue.ext⟩

/-- A representative below the modulus is read back, and nothing else is read. -/
theorem ofNat?_eq_some_iff {n : ℕ} {a : Residue m} : ofNat? m n = some a ↔ a.val = n := by
  unfold ofNat?
  split_ifs with h
  · rw [Option.some_inj, Residue.ext_iff]
    exact eq_comm
  · simp only [false_iff]
    rintro rfl
    exact h a.isLt

/-! ## The ring -/

/-- The class of a residue among the integers modulo `m`. -/
def toZMod (a : Residue m) : ZMod m := (a.val : ZMod m)

theorem toZMod_injective : Function.Injective (toZMod : Residue m → ZMod m) := by
  intro a b h
  rw [toZMod, toZMod, ZMod.natCast_eq_natCast_iff', Nat.mod_eq_of_lt a.isLt,
    Nat.mod_eq_of_lt b.isLt] at h
  exact Residue.ext h

@[simp] theorem toZMod_add (a b : Residue m) : (a + b).toZMod = a.toZMod + b.toZMod := by
  show (Residue.add a b).toZMod = _
  unfold Residue.add
  split_ifs with h
  · exact Nat.cast_add a.val b.val
  · show ((a.val + b.val - m : ℕ) : ZMod m) = _
    rw [Nat.cast_sub (Nat.le_of_not_lt h), ZMod.natCast_self, sub_zero, Nat.cast_add]
    rfl

@[simp] theorem toZMod_sub (a b : Residue m) : (a - b).toZMod = a.toZMod - b.toZMod := by
  show (Residue.sub a b).toZMod = _
  unfold Residue.sub
  split_ifs with h
  · exact Nat.cast_sub h
  · have hb : b.val ≤ a.val + m := (Nat.le_of_lt b.isLt).trans (Nat.le_add_left m a.val)
    show ((a.val + m - b.val : ℕ) : ZMod m) = _
    rw [Nat.cast_sub hb, Nat.cast_add, ZMod.natCast_self, add_zero]
    rfl

/-- The sign that a flag stands for. -/
private def signOf (plus : Bool) : ZMod m := if plus then 1 else -1

private theorem signOf_not (plus : Bool) : (signOf (!plus) : ZMod m) = -signOf plus := by
  cases plus <;> simp [signOf]

variable [Modulus m]

@[simp] theorem toZMod_ofNat (n : ℕ) : (ofNat m n).toZMod = (n : ZMod m) :=
  ZMod.natCast_mod n m

@[simp] theorem toZMod_zero : (0 : Residue m).toZMod = 0 := Nat.cast_zero

@[simp] theorem toZMod_one : (1 : Residue m).toZMod = 1 := (toZMod_ofNat 1).trans Nat.cast_one

@[simp] theorem toZMod_neg (a : Residue m) : (-a).toZMod = -a.toZMod := by
  show (Residue.neg a).toZMod = _
  unfold Residue.neg
  split_ifs with h
  · show ((0 : ℕ) : ZMod m) = _
    rw [toZMod, h, Nat.cast_zero, neg_zero]
  · show ((m - a.val : ℕ) : ZMod m) = _
    rw [Nat.cast_sub (Nat.le_of_lt a.isLt), ZMod.natCast_self, zero_sub]
    rfl

@[simp] theorem toZMod_mul (a b : Residue m) : (a * b).toZMod = a.toZMod * b.toZMod :=
  (ZMod.natCast_mod (a.val * b.val) m).trans (Nat.cast_mul _ _)

instance : CommRing (Residue m) where
  add_assoc a b c := toZMod_injective (by simp only [toZMod_add, add_assoc])
  zero_add a := toZMod_injective (by simp only [toZMod_add, toZMod_zero, zero_add])
  add_zero a := toZMod_injective (by simp only [toZMod_add, toZMod_zero, add_zero])
  add_comm a b := toZMod_injective (by simp only [toZMod_add, add_comm])
  neg_add_cancel a := toZMod_injective (by
    simp only [toZMod_add, toZMod_neg, toZMod_zero, neg_add_cancel])
  sub_eq_add_neg a b := toZMod_injective (by
    simp only [toZMod_sub, toZMod_add, toZMod_neg, sub_eq_add_neg])
  mul_assoc a b c := toZMod_injective (by simp only [toZMod_mul, mul_assoc])
  mul_comm a b := toZMod_injective (by simp only [toZMod_mul, mul_comm])
  one_mul a := toZMod_injective (by simp only [toZMod_mul, toZMod_one, one_mul])
  mul_one a := toZMod_injective (by simp only [toZMod_mul, toZMod_one, mul_one])
  zero_mul a := toZMod_injective (by simp only [toZMod_mul, toZMod_zero, zero_mul])
  mul_zero a := toZMod_injective (by simp only [toZMod_mul, toZMod_zero, mul_zero])
  left_distrib a b c := toZMod_injective (by simp only [toZMod_mul, toZMod_add, mul_add])
  right_distrib a b c := toZMod_injective (by simp only [toZMod_mul, toZMod_add, add_mul])
  nsmul := nsmulRec
  zsmul := zsmulRec
  natCast := ofNat m
  natCast_zero := toZMod_injective (by simp)
  natCast_succ n := toZMod_injective (by simp)

@[simp] theorem val_ofNat (n : ℕ) : (ofNat m n).val = n % m := rfl

@[simp] theorem val_zero : (0 : Residue m).val = 0 := rfl

theorem ofNat_val (a : Residue m) : ofNat m a.val = a :=
  Residue.ext (Nat.mod_eq_of_lt a.isLt)

@[simp] theorem natCast_val (a : Residue m) : ((a.val : ℕ) : Residue m) = a := ofNat_val a

theorem natCast_val_add (a b : Residue m) : ((a.val + b.val : ℕ) : Residue m) = a + b := by
  rw [Nat.cast_add, natCast_val, natCast_val]

theorem natCast_val_pow (a : Residue m) (n : ℕ) : ((a.val ^ n : ℕ) : Residue m) = a ^ n := by
  rw [Nat.cast_pow, natCast_val]

/-- The representative of a sum is that of the sum of the representatives. -/
theorem val_add (a b : Residue m) : (a + b).val = (a.val + b.val) % m := by
  rw [← natCast_val_add]
  exact val_ofNat _

theorem val_pow (a : Residue m) (n : ℕ) : (a ^ n).val = a.val ^ n % m := by
  rw [← natCast_val_pow]
  exact val_ofNat _

/-- Residues are the integers modulo `m`. -/
def toZModEquiv : Residue m ≃+* ZMod m where
  toFun := toZMod
  invFun z := ofNat m z.val
  left_inv a := toZMod_injective (by
    have : NeZero m := ⟨Modulus.pos.ne'⟩
    rw [toZMod_ofNat, ZMod.natCast_zmod_val])
  right_inv z := by
    have : NeZero m := ⟨Modulus.pos.ne'⟩
    rw [toZMod_ofNat, ZMod.natCast_zmod_val]
  map_mul' := toZMod_mul
  map_add' := toZMod_add

/-- The representative of the class of an integer is its remainder. -/
theorem val_intCast (n : ℤ) : (((n : Residue m).val : ℕ) : ℤ) = n % m := by
  have : NeZero m := ⟨Modulus.pos.ne'⟩
  rw [← ZMod.val_intCast, ← map_intCast (toZModEquiv (m := m))]
  exact congrArg Nat.cast (ZMod.val_cast_of_lt (n : Residue m).isLt).symm

instance : CharP (Residue m) m :=
  (RingHom.charP_iff (toZModEquiv (m := m)).symm.toRingHom toZModEquiv.symm.injective m).mp
    inferInstance

instance : Finite (Residue m) :=
  have : NeZero m := ⟨Modulus.pos.ne'⟩
  Finite.of_equiv (ZMod m) toZModEquiv.symm.toEquiv

/-! ## Inverses -/

/-- What Euclid's algorithm keeps: the remainders `r₀` and `r₁` are multiples of `a` by their
cofactors, with opposite signs, and the cofactors are bounded by the modulus. -/
private structure Cofactors (m a r₀ r₁ t₀ t₁ : ℕ) (plus : Bool) : Prop where
  pos : 0 < r₀
  first : (r₀ : ZMod m) = -(signOf plus : ZMod m) * t₀ * a
  second : (r₁ : ZMod m) = (signOf plus : ZMod m) * t₁ * a
  modulus : t₁ * r₀ + t₀ * r₁ = m
  bound : t₀ ≤ m

omit [Modulus m] in
private theorem Cofactors.next {a r₀ r₁ t₀ t₁ : ℕ} {plus : Bool}
    (h : Cofactors m a r₀ r₁ t₀ t₁ plus) (hr : r₁ ≠ 0) :
    Cofactors m a r₁ (r₀ % r₁) t₁ (t₀ + r₀ / r₁ * t₁) (!plus) where
  pos := Nat.pos_of_ne_zero hr
  first := by rw [signOf_not, neg_neg, h.second]
  second := by
    have hdiv : ((r₁ * (r₀ / r₁) + r₀ % r₁ : ℕ) : ZMod m) = (r₀ : ZMod m) := by
      rw [Nat.div_add_mod]
    push_cast at hdiv ⊢
    rw [h.first, h.second] at hdiv
    rw [signOf_not]
    linear_combination hdiv
  modulus := by
    have hdiv : r₁ * (r₀ / r₁) + r₀ % r₁ = r₀ := Nat.div_add_mod r₀ r₁
    calc (t₀ + r₀ / r₁ * t₁) * r₁ + t₁ * (r₀ % r₁)
        = t₁ * (r₁ * (r₀ / r₁) + r₀ % r₁) + t₀ * r₁ := by ring
      _ = m := by rw [hdiv, h.modulus]
  bound := by
    have hle : t₁ * 1 ≤ t₁ * r₀ := Nat.mul_le_mul_left t₁ h.pos
    have hm := h.modulus
    omega

omit [Modulus m] in
/-- The algorithm expresses the greatest common divisor of the remainders as a multiple of `a`. -/
private theorem cofactor_spec {a : ℕ} :
    ∀ {fuel r₀ r₁ t₀ t₁ : ℕ} {plus : Bool}, r₁ ≤ fuel → Cofactors m a r₀ r₁ t₀ t₁ plus →
      ((r₀.gcd r₁ : ℕ) : ZMod m) = (signOf (cofactor fuel r₀ r₁ t₀ t₁ plus).2 : ZMod m)
          * (cofactor fuel r₀ r₁ t₀ t₁ plus).1 * a ∧
        (cofactor fuel r₀ r₁ t₀ t₁ plus).1 ≤ m := by
  intro fuel
  induction fuel with
  | zero =>
    intro r₀ r₁ t₀ t₁ plus hr h
    obtain rfl : r₁ = 0 := by omega
    rw [cofactor, Nat.gcd_zero_right, signOf_not]
    exact ⟨h.first, h.bound⟩
  | succ fuel ih =>
    intro r₀ r₁ t₀ t₁ plus hr h
    rw [cofactor]
    split_ifs with h0
    · rw [h0, Nat.gcd_zero_right, signOf_not]
      exact ⟨h.first, h.bound⟩
    · have hlt : r₀ % r₁ < r₁ := Nat.mod_lt _ (Nat.pos_of_ne_zero h0)
      have hgcd : r₀.gcd r₁ = r₁.gcd (r₀ % r₁) := by
        rw [Nat.gcd_comm, Nat.gcd_rec, Nat.gcd_comm]
      rw [hgcd]
      exact ih (by omega) (h.next h0)

/-- The inverse of a residue, times the residue, is the common divisor of representative and
modulus. -/
theorem toZMod_inv_mul (a : Residue m) : (a⁻¹).toZMod * a.toZMod = (m.gcd a.val : ℕ) := by
  have hstart : Cofactors m a.val m a.val 0 1 true :=
    ⟨Modulus.pos, by simp, by simp [signOf], by simp, Nat.zero_le m⟩
  obtain ⟨hgcd, hle⟩ := cofactor_spec (Nat.le_of_lt a.isLt) hstart
  rw [hgcd]
  show (Residue.inv a).toZMod * _ = _
  unfold Residue.inv
  rcases hc : cofactor m m a.val 0 1 true with ⟨t, plus⟩
  rw [hc] at hle
  cases plus with
  | true => simp [signOf, toZMod]
  | false =>
    rw [toZMod_ofNat, Nat.cast_sub hle, ZMod.natCast_self]
    simp [signOf, toZMod]

theorem inv_mul_of_coprime {a : Residue m} (h : m.Coprime a.val) : a⁻¹ * a = 1 := by
  apply toZMod_injective
  rw [toZMod_mul, toZMod_inv_mul, h.gcd_eq_one, Nat.cast_one, toZMod_one]

/-- The algorithm stops at once for the class of zero. -/
theorem inv_zero : (0 : Residue m)⁻¹ = 0 := by
  apply toZMod_injective
  show (Residue.inv 0).toZMod = _
  obtain ⟨n, hn⟩ : ∃ n, m = n + 1 := Nat.exists_eq_succ_of_ne_zero Modulus.pos.ne'
  have hc : cofactor m m (0 : Residue m).val 0 1 true = (0, false) := by
    rw [val_zero]
    -- The fuel is the modulus, which must be seen to be a successor before a step is taken.
    generalize m = k at hn ⊢
    subst hn
    rw [cofactor, if_pos rfl]
    rfl
  unfold Residue.inv
  rw [hc, toZMod_ofNat, Nat.sub_zero, ZMod.natCast_self, toZMod_zero]

theorem coprime_val {a : Residue m} [hm : Fact m.Prime] (h : a ≠ 0) : m.Coprime a.val := by
  refine (Nat.Prime.coprime_iff_not_dvd hm.out).mpr fun hd ↦ h (Residue.ext ?_)
  exact Nat.eq_zero_of_dvd_of_lt hd a.isLt

instance [hm : Fact m.Prime] : Field (Residue m) where
  exists_pair_ne := by
    refine ⟨0, 1, fun h ↦ ?_⟩
    have h01 := congrArg toZMod h
    rw [toZMod_zero, toZMod_one] at h01
    exact zero_ne_one h01
  mul_inv_cancel a ha := by rw [mul_comm, inv_mul_of_coprime (coprime_val ha)]
  inv_zero := inv_zero
  nnqsmul := _
  nnqsmul_def _ _ := rfl
  qsmul := _
  qsmul_def _ _ := rfl

end BilinearGroups.Residue
