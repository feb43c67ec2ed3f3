import Mathlib.Algebra.CharP.Algebra
import Mathlib.Tactic.LinearCombination
import Mathlib.Tactic.Ring
import BilinearGroups.Bls12.Fp12
import BilinearGroups.Proofs.Algebra.Residue

/-!
# The tower of extensions as commutative rings

Each floor of the tower is a commutative ring whatever the field order: the laws are polynomial
identities between coefficients. What has to be shown first is that the products, which save
multiplications, are the products of polynomials modulo the defining equation (`mul_c0` and its
companions). Every floor embeds the one below it, and the elements `u`, `v` and `w` that are
adjoined satisfy `u² = -1`, `v³ = 1 + u` and `w² = v`.

Nothing here needs the rings to be fields. Inverses are the subject of a later file.
-/

namespace BilinearGroups.Bls12

/-! ## The quadratic extension -/

namespace Fp2

@[ext] theorem ext {a b : Fp2} (h0 : a.c0 = b.c0) (h1 : a.c1 = b.c1) : a = b := by
  cases a
  cases b
  cases h0
  cases h1
  rfl

@[simp] theorem zero_c0 : (0 : Fp2).c0 = 0 := rfl
@[simp] theorem zero_c1 : (0 : Fp2).c1 = 0 := rfl
@[simp] theorem one_c0 : (1 : Fp2).c0 = 1 := rfl
@[simp] theorem one_c1 : (1 : Fp2).c1 = 0 := rfl
@[simp] theorem add_c0 (a b : Fp2) : (a + b).c0 = a.c0 + b.c0 := rfl
@[simp] theorem add_c1 (a b : Fp2) : (a + b).c1 = a.c1 + b.c1 := rfl
@[simp] theorem sub_c0 (a b : Fp2) : (a - b).c0 = a.c0 - b.c0 := rfl
@[simp] theorem sub_c1 (a b : Fp2) : (a - b).c1 = a.c1 - b.c1 := rfl
@[simp] theorem neg_c0 (a : Fp2) : (-a).c0 = -a.c0 := rfl
@[simp] theorem neg_c1 (a : Fp2) : (-a).c1 = -a.c1 := rfl
@[simp] theorem mul_c0 (a b : Fp2) : (a * b).c0 = a.c0 * b.c0 - a.c1 * b.c1 := rfl

@[simp] theorem mul_c1 (a b : Fp2) : (a * b).c1 = a.c0 * b.c1 + a.c1 * b.c0 := by
  show (a.c0 + a.c1) * (b.c0 + b.c1) - a.c0 * b.c0 - a.c1 * b.c1 = _
  ring

instance : CommRing Fp2 where
  add_assoc a b c := Fp2.ext (add_assoc _ _ _) (add_assoc _ _ _)
  zero_add a := Fp2.ext (zero_add _) (zero_add _)
  add_zero a := Fp2.ext (add_zero _) (add_zero _)
  add_comm a b := Fp2.ext (add_comm _ _) (add_comm _ _)
  neg_add_cancel a := Fp2.ext (neg_add_cancel _) (neg_add_cancel _)
  sub_eq_add_neg a b := Fp2.ext (sub_eq_add_neg _ _) (sub_eq_add_neg _ _)
  mul_assoc a b c := by ext <;> simp only [mul_c0, mul_c1] <;> ring
  mul_comm a b := by ext <;> simp only [mul_c0, mul_c1] <;> ring
  one_mul a := by ext <;> simp
  mul_one a := by ext <;> simp
  zero_mul a := by ext <;> simp
  mul_zero a := by ext <;> simp
  left_distrib a b c := by ext <;> simp only [mul_c0, mul_c1, add_c0, add_c1] <;> ring
  right_distrib a b c := by ext <;> simp only [mul_c0, mul_c1, add_c0, add_c1] <;> ring
  nsmul := nsmulRec
  zsmul := zsmulRec

/-- The coordinate field inside its quadratic extension. -/
def ofFp : Fp →+* Fp2 where
  toFun a := ⟨a, 0⟩
  map_zero' := rfl
  map_one' := rfl
  map_add' a b := by ext <;> simp
  map_mul' a b := by ext <;> simp

@[simp] theorem ofFp_c0 (a : Fp) : (ofFp a).c0 = a := rfl
@[simp] theorem ofFp_c1 (a : Fp) : (ofFp a).c1 = 0 := rfl

theorem ofFp_injective : Function.Injective ofFp := fun _ _ h ↦ congrArg Fp2.c0 h

instance : CharP Fp2 fieldOrder :=
  (RingHom.charP_iff ofFp ofFp_injective fieldOrder).mp inferInstance

/-- The square root of `-1` that is adjoined. -/
def u : Fp2 := ⟨0, 1⟩

theorem u_sq : u * u = -1 := by ext <;> simp [u]

theorem eq_ofFp_add (a : Fp2) : a = ofFp a.c0 + ofFp a.c1 * u := by ext <;> simp [u]

/-- The element `1 + u`, of which the floors above adjoin roots. -/
def xi : Fp2 := ⟨1, 1⟩

theorem timesXi_eq (a : Fp2) : a.timesXi = xi * a := by
  ext <;> simp only [timesXi, xi, mul_c0, mul_c1] <;> ring

theorem scale_eq (k : Fp) (a : Fp2) : a.scale k = ofFp k * a := by
  ext <;> simp [scale]

/-- Conjugation is an automorphism of order two. -/
def conjHom : Fp2 →+* Fp2 where
  toFun := conj
  map_zero' := by ext <;> simp [conj]
  map_one' := by ext <;> simp [conj]
  map_add' a b := by
    ext
    · rfl
    · exact neg_add a.c1 b.c1
  map_mul' a b := by ext <;> simp only [conj, mul_c0, mul_c1] <;> ring

@[simp] theorem conjHom_apply (a : Fp2) : conjHom a = a.conj := rfl

@[simp] theorem conj_conj (a : Fp2) : a.conj.conj = a := by ext <;> simp [conj]

theorem mul_conj (a : Fp2) : a * a.conj = ofFp a.norm := by
  ext <;> simp only [conj, norm, mul_c0, mul_c1, ofFp_c0, ofFp_c1] <;> ring

end Fp2

/-! ## The cubic extension -/

namespace Fp6

@[ext] theorem ext {a b : Fp6} (h0 : a.c0 = b.c0) (h1 : a.c1 = b.c1) (h2 : a.c2 = b.c2) :
    a = b := by
  cases a
  cases b
  cases h0
  cases h1
  cases h2
  rfl

@[simp] theorem zero_c0 : (0 : Fp6).c0 = 0 := rfl
@[simp] theorem zero_c1 : (0 : Fp6).c1 = 0 := rfl
@[simp] theorem zero_c2 : (0 : Fp6).c2 = 0 := rfl
@[simp] theorem one_c0 : (1 : Fp6).c0 = 1 := rfl
@[simp] theorem one_c1 : (1 : Fp6).c1 = 0 := rfl
@[simp] theorem one_c2 : (1 : Fp6).c2 = 0 := rfl
@[simp] theorem add_c0 (a b : Fp6) : (a + b).c0 = a.c0 + b.c0 := rfl
@[simp] theorem add_c1 (a b : Fp6) : (a + b).c1 = a.c1 + b.c1 := rfl
@[simp] theorem add_c2 (a b : Fp6) : (a + b).c2 = a.c2 + b.c2 := rfl
@[simp] theorem neg_c0 (a : Fp6) : (-a).c0 = -a.c0 := rfl
@[simp] theorem neg_c1 (a : Fp6) : (-a).c1 = -a.c1 := rfl
@[simp] theorem neg_c2 (a : Fp6) : (-a).c2 = -a.c2 := rfl

@[simp] theorem mul_c0 (a b : Fp6) :
    (a * b).c0 = a.c0 * b.c0 + Fp2.xi * (a.c1 * b.c2 + a.c2 * b.c1) := by
  show a.c0 * b.c0 + ((a.c1 + a.c2) * (b.c1 + b.c2) - a.c1 * b.c1 - a.c2 * b.c2).timesXi = _
  rw [Fp2.timesXi_eq]
  ring

@[simp] theorem mul_c1 (a b : Fp6) :
    (a * b).c1 = a.c0 * b.c1 + a.c1 * b.c0 + Fp2.xi * (a.c2 * b.c2) := by
  show (a.c0 + a.c1) * (b.c0 + b.c1) - a.c0 * b.c0 - a.c1 * b.c1 + (a.c2 * b.c2).timesXi = _
  rw [Fp2.timesXi_eq]
  ring

@[simp] theorem mul_c2 (a b : Fp6) :
    (a * b).c2 = a.c0 * b.c2 + a.c1 * b.c1 + a.c2 * b.c0 := by
  show (a.c0 + a.c2) * (b.c0 + b.c2) - a.c0 * b.c0 - a.c2 * b.c2 + a.c1 * b.c1 = _
  ring

instance : CommRing Fp6 where
  add_assoc a b c := Fp6.ext (add_assoc _ _ _) (add_assoc _ _ _) (add_assoc _ _ _)
  zero_add a := Fp6.ext (zero_add _) (zero_add _) (zero_add _)
  add_zero a := Fp6.ext (add_zero _) (add_zero _) (add_zero _)
  add_comm a b := Fp6.ext (add_comm _ _) (add_comm _ _) (add_comm _ _)
  neg_add_cancel a := Fp6.ext (neg_add_cancel _) (neg_add_cancel _) (neg_add_cancel _)
  sub_eq_add_neg a b := Fp6.ext (sub_eq_add_neg _ _) (sub_eq_add_neg _ _) (sub_eq_add_neg _ _)
  mul_assoc a b c := by ext1 <;> simp only [mul_c0, mul_c1, mul_c2] <;> ring
  mul_comm a b := by ext1 <;> simp only [mul_c0, mul_c1, mul_c2] <;> ring
  one_mul a := by ext1 <;> simp
  mul_one a := by ext1 <;> simp
  zero_mul a := by ext1 <;> simp
  mul_zero a := by ext1 <;> simp
  left_distrib a b c := by
    ext1 <;> simp only [mul_c0, mul_c1, mul_c2, add_c0, add_c1, add_c2] <;> ring
  right_distrib a b c := by
    ext1 <;> simp only [mul_c0, mul_c1, mul_c2, add_c0, add_c1, add_c2] <;> ring
  nsmul := nsmulRec
  zsmul := zsmulRec

/-- The quadratic extension inside its cubic extension. -/
def ofFp2 : Fp2 →+* Fp6 where
  toFun a := ⟨a, 0, 0⟩
  map_zero' := rfl
  map_one' := rfl
  map_add' a b := by ext1 <;> simp
  map_mul' a b := by ext1 <;> simp

@[simp] theorem ofFp2_c0 (a : Fp2) : (ofFp2 a).c0 = a := rfl
@[simp] theorem ofFp2_c1 (a : Fp2) : (ofFp2 a).c1 = 0 := rfl
@[simp] theorem ofFp2_c2 (a : Fp2) : (ofFp2 a).c2 = 0 := rfl

theorem ofFp2_injective : Function.Injective ofFp2 := fun _ _ h ↦ congrArg Fp6.c0 h

/-- The cube root of `1 + u` that is adjoined. -/
def v : Fp6 := ⟨0, 1, 0⟩

theorem v_cube : v * v * v = ofFp2 Fp2.xi := by ext1 <;> simp [v]

theorem timesV_eq (a : Fp6) : a.timesV = v * a := by
  ext1 <;> simp [timesV, v, Fp2.timesXi_eq]

theorem scale_eq (k : Fp2) (a : Fp6) : a.scale k = ofFp2 k * a := by
  ext1 <;> simp [scale]

/-- An element and its adjoint multiply to the norm. -/
theorem mul_adjoint (a : Fp6) : a * a.adjoint = ofFp2 a.norm := by
  ext1 <;>
    simp only [adjoint, norm, Fp2.timesXi_eq, mul_c0, mul_c1, mul_c2, ofFp2_c0, ofFp2_c1,
      ofFp2_c2] <;> ring

end Fp6

/-! ## The field of the target group -/

namespace Fp12

@[ext] theorem ext {a b : Fp12} (h0 : a.c0 = b.c0) (h1 : a.c1 = b.c1) : a = b := by
  cases a
  cases b
  cases h0
  cases h1
  rfl

instance : Add Fp12 := ⟨fun a b ↦ ⟨a.c0 + b.c0, a.c1 + b.c1⟩⟩

instance : Neg Fp12 := ⟨fun a ↦ ⟨-a.c0, -a.c1⟩⟩

@[simp] theorem zero_c0 : (0 : Fp12).c0 = 0 := rfl
@[simp] theorem zero_c1 : (0 : Fp12).c1 = 0 := rfl
@[simp] theorem one_c0 : (1 : Fp12).c0 = 1 := rfl
@[simp] theorem one_c1 : (1 : Fp12).c1 = 0 := rfl
@[simp] theorem add_c0 (a b : Fp12) : (a + b).c0 = a.c0 + b.c0 := rfl
@[simp] theorem add_c1 (a b : Fp12) : (a + b).c1 = a.c1 + b.c1 := rfl
@[simp] theorem neg_c0 (a : Fp12) : (-a).c0 = -a.c0 := rfl
@[simp] theorem neg_c1 (a : Fp12) : (-a).c1 = -a.c1 := rfl

@[simp] theorem mul_c0 (a b : Fp12) : (a * b).c0 = a.c0 * b.c0 + Fp6.v * (a.c1 * b.c1) := by
  show a.c0 * b.c0 + (a.c1 * b.c1).timesV = _
  rw [Fp6.timesV_eq]

@[simp] theorem mul_c1 (a b : Fp12) : (a * b).c1 = a.c0 * b.c1 + a.c1 * b.c0 := by
  show (a.c0 + a.c1) * (b.c0 + b.c1) - a.c0 * b.c0 - a.c1 * b.c1 = _
  ring

instance : CommRing Fp12 where
  add_assoc a b c := Fp12.ext (add_assoc _ _ _) (add_assoc _ _ _)
  zero_add a := Fp12.ext (zero_add _) (zero_add _)
  add_zero a := Fp12.ext (add_zero _) (add_zero _)
  add_comm a b := Fp12.ext (add_comm _ _) (add_comm _ _)
  neg_add_cancel a := Fp12.ext (neg_add_cancel _) (neg_add_cancel _)
  mul_assoc a b c := by ext1 <;> simp only [mul_c0, mul_c1] <;> ring
  mul_comm a b := by ext1 <;> simp only [mul_c0, mul_c1] <;> ring
  one_mul a := by ext1 <;> simp
  mul_one a := by ext1 <;> simp
  zero_mul a := by ext1 <;> simp
  mul_zero a := by ext1 <;> simp
  left_distrib a b c := by ext1 <;> simp only [mul_c0, mul_c1, add_c0, add_c1] <;> ring
  right_distrib a b c := by ext1 <;> simp only [mul_c0, mul_c1, add_c0, add_c1] <;> ring
  nsmul := nsmulRec
  zsmul := zsmulRec

/-- The cubic extension inside the field of the target group. -/
def ofFp6 : Fp6 →+* Fp12 where
  toFun a := ⟨a, 0⟩
  map_zero' := rfl
  map_one' := rfl
  map_add' a b := by ext1 <;> simp
  map_mul' a b := by ext1 <;> simp

@[simp] theorem ofFp6_c0 (a : Fp6) : (ofFp6 a).c0 = a := rfl
@[simp] theorem ofFp6_c1 (a : Fp6) : (ofFp6 a).c1 = 0 := rfl

theorem ofFp6_injective : Function.Injective ofFp6 := fun _ _ h ↦ congrArg Fp12.c0 h

/-- The square root of `v` that is adjoined. -/
def w : Fp12 := ⟨0, 1⟩

theorem w_sq : w * w = ofFp6 Fp6.v := by ext1 <;> simp [w]

theorem eq_ofFp6_add (a : Fp12) : a = ofFp6 a.c0 + ofFp6 a.c1 * w := by
  ext1 <;> simp [w]

theorem norm_eq (a : Fp12) : a.norm = a.c0 * a.c0 - Fp6.v * (a.c1 * a.c1) := by
  rw [norm, Fp6.timesV_eq]

/-- An element and its conjugate multiply to the norm. -/
theorem mul_conj (a : Fp12) : a * a.conj = ofFp6 a.norm := by
  ext1 <;> simp only [conj, norm_eq, mul_c0, mul_c1, ofFp6_c0, ofFp6_c1] <;> ring

end Fp12

end BilinearGroups.Bls12
