import BilinearGroups.Bls12.TargetEncoding
import BilinearGroups.Bytes.Digits
import BilinearGroups.Proofs.Bls12.TowerFields

/-!
# What the readers of target group elements accept

The order `r` divides `p⁶ + 1`, and the `p⁶`-th power is conjugation, so the conjugate of a member
is its inverse. This has two consequences. The group of members is closed under the operations that
the backends use, with no appeal to the pairing. And a member other than one is determined by its
torus coordinate: `c0² - v c1² = 1` leaves `(c0 + 1) / c1` invertible, and from it both halves come
back.

Each coefficient has exactly one string of bytes, so either reader accepts the written forms of
members and nothing else.
-/

namespace BilinearGroups.Bls12

/-! ## Members -/

theorem targetMember_iff {f : Fp12} : TargetMember f ↔ f ^ groupOrder = 1 := by
  rw [TargetMember, power_eq_pow]

namespace TargetMember

variable {f g : Fp12}

theorem one : TargetMember 1 := targetMember_iff.mpr (one_pow _)

theorem mul (hf : TargetMember f) (hg : TargetMember g) : TargetMember (f * g) := by
  rw [targetMember_iff] at hf hg ⊢
  rw [mul_pow, hf, hg, one_mul]

theorem inv (hf : TargetMember f) : TargetMember f⁻¹ := by
  rw [targetMember_iff] at hf ⊢
  rw [inv_pow, hf, inv_one]

theorem power (hf : TargetMember f) (n : ℕ) : TargetMember (power f n) := by
  rw [targetMember_iff] at hf ⊢
  rw [power_eq_pow, ← pow_mul, mul_comm, pow_mul, hf, one_pow]

/-- Conjugation inverts a member. -/
theorem mul_conj (hf : TargetMember f) : f * f.conj = 1 :=
  Fp12.mul_conj_of_pow (targetMember_iff.mp hf) (by decide)

theorem norm_eq_one (hf : TargetMember f) : f.c0 * f.c0 - Fp6.v * (f.c1 * f.c1) = 1 := by
  rw [← Fp12.norm_eq]
  apply Fp12.ofFp6_injective
  rw [← Fp12.mul_conj, hf.mul_conj, map_one]

/-- A member of the cubic extension would be a root of `1`, and `-1` has even order. -/
theorem eq_one_of_c1 (hf : TargetMember f) (h : f.c1 = 0) : f = 1 := by
  have hsquare : f.c0 * f.c0 = 1 := by
    have := hf.norm_eq_one
    rwa [h, mul_zero, mul_zero, sub_zero] at this
  rcases mul_self_eq_one_iff.mp hsquare with h0 | h0
  · exact Fp12.ext h0 h
  · have hneg : f = -1 := Fp12.ext h0 (h.trans neg_zero.symm)
    have hodd : Odd groupOrder := by decide
    rw [targetMember_iff, hneg, hodd.neg_one_pow] at hf
    have : (-1 : Fp) = 1 := congrArg (fun a : Fp12 ↦ a.c0.c0.c0) hf
    exact absurd this (by decide)

/-- The target group is not trivial, because `r` divides the number of units. -/
theorem exists_ne_one : ∃ f, TargetMember f ∧ f ≠ 1 := by
  have : Fact groupOrder.Prime := ⟨groupOrder_prime⟩
  have hdvd : groupOrder ∣ Nat.card Fp12ˣ := by
    rw [Nat.card_units, Fp12.card_eq]
    decide
  obtain ⟨u, hu⟩ := exists_prime_orderOf_dvd_card' groupOrder hdvd
  refine ⟨u, ?_, ?_⟩
  · rw [targetMember_iff, ← Units.val_pow_eq_pow_val, ← hu, pow_orderOf_eq_one, Units.val_one]
  · intro hone
    rw [Units.val_eq_one.mp hone, orderOf_one] at hu
    exact groupOrder_prime.one_lt.ne hu

end TargetMember

theorem Fp.length_toBytesLE (a : Fp) : a.toBytesLE.length = width := Bytes.length_ofNatLE _ _

theorem Fp.ofBytesLE?_eq_some_iff {bs : Bytes} {a : Fp} (h : bs.length = width) :
    ofBytesLE? bs = some a ↔ bs = a.toBytesLE := by
  have hfits : a.val < 256 ^ width := a.isLt.trans (by decide)
  rw [ofBytesLE?, Residue.ofNat?_eq_some_iff, eq_comm, Bytes.toNatLE_eq_iff h hfits, toBytesLE]

theorem Fp6.ofCoefficients?_eq_some_iff {cs : List Fp} {a : Fp6} :
    ofCoefficients? cs = some a ↔ cs = a.coefficients := by
  constructor
  · intro h
    unfold ofCoefficients? at h
    split at h
    · cases h
      rfl
    · cases h
  · rintro rfl
    rfl

theorem Fp12.ofCoefficients?_eq_some_iff {cs : List Fp} {a : Fp12} :
    ofCoefficients? cs = some a ↔ cs = a.coefficients := by
  simp only [ofCoefficients?, Option.bind_eq_bind, Option.bind_eq_some_iff, Option.pure_def,
    Fp6.ofCoefficients?_eq_some_iff, Option.some.injEq]
  constructor
  · rintro ⟨c0, h0, c1, h1, rfl⟩
    rw [coefficients, ← h0, ← h1, List.take_append_drop]
  · rintro rfl
    exact ⟨a.c0, rfl, a.c1, rfl, rfl⟩

theorem Fp6.coefficients_injective : Function.Injective Fp6.coefficients := by
  intro a b h
  have hread := ofCoefficients?_eq_some_iff.mpr h
  rw [ofCoefficients?_eq_some_iff.mpr rfl] at hread
  exact Option.some.inj hread

theorem Fp12.coefficients_injective : Function.Injective Fp12.coefficients := by
  intro a b h
  have hread := ofCoefficients?_eq_some_iff.mpr h
  rw [ofCoefficients?_eq_some_iff.mpr rfl] at hread
  exact Option.some.inj hread

namespace TargetEncoding

/-! ## The torus -/

theorem torus?_eq_some {f : Fp12} (h : f.c1 ≠ 0) : torus? f = some ((f.c0 + 1) * f.c1⁻¹) := if_neg h

/-- A member other than one has a torus coordinate, and it is the element with that coordinate. -/
theorem exists_torus {f : Fp12} (hf : TargetMember f) (h : f ≠ 1) :
    ∃ t, torus? f = some t ∧ t ≠ 0 ∧ ofTorus t = f := by
  have hc1 : f.c1 ≠ 0 := fun h0 ↦ h (hf.eq_one_of_c1 h0)
  have hnorm := hf.norm_eq_one
  have hv : Fp6.v ≠ 0 := fun h0 ↦ one_ne_zero (congrArg Fp6.c1 h0)
  -- The norm is one, so `(c0 + 1) (c0 - 1)` is `v c1²`, which does not vanish.
  have hc0 : f.c0 + 1 ≠ 0 := by
    intro h0
    have hzero : Fp6.v * (f.c1 * f.c1) = 0 := by
      linear_combination (f.c0 - 1) * h0 - hnorm
    exact mul_ne_zero hv (mul_ne_zero hc1 hc1) hzero
  refine ⟨_, torus?_eq_some hc1, mul_ne_zero hc0 (inv_ne_zero hc1), ?_⟩
  have hne : (⟨(f.c0 + 1) * f.c1⁻¹, -1⟩ : Fp12) ≠ 0 := fun h0 ↦
    neg_ne_zero.mpr one_ne_zero (congrArg Fp12.c1 h0)
  rw [ofTorus, mul_inv_eq_iff_eq_mul₀ hne]
  ext1 <;> simp only [Fp12.mul_c0, Fp12.mul_c1]
  · field_simp
    linear_combination -hnorm
  · field_simp
    ring

/-- The element with a torus coordinate has that coordinate, if it is a member. -/
theorem torus?_ofTorus {t : Fp6} (h : TargetMember (ofTorus t)) : torus? (ofTorus t) = some t := by
  have hne : (⟨t, -1⟩ : Fp12) ≠ 0 := fun h0 ↦ neg_ne_zero.mpr one_ne_zero (congrArg Fp12.c1 h0)
  have hmul : ofTorus t * ⟨t, -1⟩ = ⟨t, 1⟩ := inv_mul_cancel_right₀ hne _
  have h0 : (ofTorus t).c0 * t + Fp6.v * ((ofTorus t).c1 * -1) = t := by
    rw [← Fp12.mul_c0 (ofTorus t) ⟨t, -1⟩, hmul]
  have h1 : (ofTorus t).c0 * -1 + (ofTorus t).c1 * t = 1 := by
    rw [← Fp12.mul_c1 (ofTorus t) ⟨t, -1⟩, hmul]
  have hc1 : (ofTorus t).c1 ≠ 0 := by
    intro hzero
    have hone := h.eq_one_of_c1 hzero
    rw [hone, Fp12.one_c0, Fp12.one_c1] at h1
    have : (-1 : Fp) = 1 := by
      have := congrArg (fun a : Fp6 ↦ a.c0.c0) h1
      simpa using this
    exact absurd this (by decide)
  rw [torus?_eq_some hc1, Option.some.injEq, mul_inv_eq_iff_eq_mul₀ hc1]
  linear_combination -h1

/-! ## Coefficients -/

theorem coefficients?_eq_some_iff {count : ℕ} {bs : Bytes} {cs : List Fp}
    (h : bs.length = count * Fp.width) :
    coefficients? count bs = some cs ↔ cs.length = count ∧ bs = coefficientBytes cs := by
  -- The string loses one piece at a time, and with it one coefficient.
  induction count generalizing bs cs with
  | zero =>
    obtain rfl : bs = [] := List.eq_nil_of_length_eq_zero (by rw [h, Nat.zero_mul])
    constructor
    · rintro ⟨⟩
      exact ⟨rfl, rfl⟩
    · rintro ⟨hcs, -⟩
      obtain rfl := List.eq_nil_of_length_eq_zero hcs
      rfl
  | succ count ih =>
    have hwidth : (bs.take Fp.width).length = Fp.width := by
      rw [List.length_take, h, Nat.succ_mul]
      omega
    have hrest : (bs.drop Fp.width).length = count * Fp.width := by
      rw [List.length_drop, h, Nat.succ_mul]
      omega
    have hsplit : coefficients? (count + 1) bs = (Fp.ofBytesLE? (bs.take Fp.width)).bind fun c ↦
        (coefficients? count (bs.drop Fp.width)).bind fun cs ↦ some (c :: cs) := by
      rw [coefficients?, Bytes.pieces, List.mapM_cons]
      rfl
    simp only [hsplit, Option.bind_eq_some_iff, Fp.ofBytesLE?_eq_some_iff hwidth, ih hrest,
      Option.some.injEq]
    constructor
    · rintro ⟨c, hc, cs, ⟨rfl, hcs⟩, rfl⟩
      refine ⟨rfl, ?_⟩
      rw [coefficientBytes, List.flatMap_cons, ← hc, ← coefficientBytes, ← hcs,
        List.take_append_drop]
    · rintro ⟨hcs, rfl⟩
      obtain ⟨c, cs, rfl⟩ := List.exists_cons_of_length_eq_add_one hcs
      refine ⟨c, ?_, cs, ⟨Nat.succ.inj hcs, ?_⟩, rfl⟩
      · rw [coefficientBytes, List.flatMap_cons, ← Fp.length_toBytesLE c, List.take_left]
      · rw [coefficientBytes, List.flatMap_cons, ← Fp.length_toBytesLE c, List.drop_left,
          coefficientBytes]

theorem length_coefficientBytes (cs : List Fp) :
    (coefficientBytes cs).length = cs.length * Fp.width := by
  induction cs with
  | nil => rfl
  | cons c cs ih =>
    rw [coefficientBytes, List.flatMap_cons, List.length_append, Fp.length_toBytesLE,
      ← coefficientBytes, ih, List.length_cons, Nat.succ_mul, Nat.add_comm]

/-- As many coefficients are determined by their bytes. -/
theorem coefficientBytes_inj {cs ds : List Fp} (hlength : cs.length = ds.length)
    (h : coefficientBytes cs = coefficientBytes ds) : cs = ds := by
  have hwidth := length_coefficientBytes cs
  have hread := (coefficients?_eq_some_iff hwidth).mpr ⟨hlength.symm, h⟩
  rw [(coefficients?_eq_some_iff hwidth).mpr ⟨rfl, rfl⟩] at hread
  exact Option.some.inj hread

/-- The pieces of the bytes of coefficients spell integers below the field order. -/
theorem toNatLE_lt_of_mem_pieces (cs : List Fp) {piece : Bytes}
    (h : piece ∈ Bytes.pieces Fp.width cs.length (coefficientBytes cs)) :
    Bytes.toNatLE piece < fieldOrder := by
  induction cs with
  | nil => cases h
  | cons c cs ih =>
    have hfits : c.val < 256 ^ Fp.width := c.isLt.trans (by decide)
    rw [List.length_cons, Bytes.pieces, coefficientBytes, List.flatMap_cons,
      ← Fp.length_toBytesLE c, List.take_left, List.drop_left, Fp.length_toBytesLE,
      ← coefficientBytes, List.mem_cons] at h
    rcases h with rfl | h
    · rw [Fp.toBytesLE, Bytes.toNatLE_ofNatLE hfits]
      exact c.isLt
    · exact ih h

/-! ## Readers -/

theorem member?_eq_some_iff {f g : Fp12} : member? f = some g ↔ g = f ∧ TargetMember g := by
  rw [member?]
  split_ifs with h
  · constructor
    · rintro ⟨⟩
      exact ⟨rfl, h⟩
    · rintro ⟨rfl, -⟩
      rfl
  · simp only [false_iff, not_and]
    rintro rfl
    exact h

theorem length_toFull (f : Fp12) : (toFull f).length = fullLength := length_coefficientBytes _

theorem ofFull?_eq_some_iff {bs : Bytes} {f : Fp12} :
    ofFull? bs = some f ↔ bs = toFull f ∧ TargetMember f := by
  rw [ofFull?]
  split_ifs with hlength
  · simp only [false_iff, not_and]
    rintro rfl
    exact absurd (length_toFull f) hlength
  · have hlength : bs.length = 12 * Fp.width := of_not_not hlength
    simp only [Option.bind_eq_bind, Option.bind_eq_some_iff, coefficients?_eq_some_iff hlength,
      Fp12.ofCoefficients?_eq_some_iff, member?_eq_some_iff]
    constructor
    · rintro ⟨cs, ⟨-, rfl⟩, g, rfl, rfl, hmember⟩
      exact ⟨rfl, hmember⟩
    · rintro ⟨rfl, hmember⟩
      exact ⟨f.coefficients, ⟨rfl, rfl⟩, f, rfl, rfl, hmember⟩

theorem toShort?_one : toShort? 1 = some (Bytes.zeros shortLength) := if_pos rfl

/-- A member other than one is written by a torus coordinate that is not zero. -/
theorem exists_toShort? {f : Fp12} (hf : TargetMember f) (h : f ≠ 1) :
    ∃ t : Fp6, toShort? f = some (coefficientBytes t.coefficients) ∧ t ≠ 0 ∧ ofTorus t = f := by
  obtain ⟨t, ht, hne, hof⟩ := exists_torus hf h
  exact ⟨t, by rw [toShort?, if_neg h, ht, Option.map_some], hne, hof⟩

/-- The writer of short forms refuses no member. -/
theorem toShort?_eq_some {f : Fp12} (hf : TargetMember f) : toShort? f = some (toShort f) := by
  by_cases h : f = 1
  · rw [toShort, h, toShort?_one, Option.getD_some]
  · obtain ⟨t, ht, -⟩ := exists_toShort? hf h
    rw [toShort, ht, Option.getD_some]

theorem length_toShort {f : Fp12} (hf : TargetMember f) : (toShort f).length = shortLength := by
  by_cases h : f = 1
  · rw [toShort, h, toShort?_one, Option.getD_some, Bytes.zeros, List.length_replicate]
  · obtain ⟨t, ht, -⟩ := exists_toShort? hf h
    rw [toShort, ht, Option.getD_some]
    exact length_coefficientBytes _

/-- The zero string spells the torus coordinate zero, which no member has. -/
theorem eq_zero_of_coefficientBytes {t : Fp6}
    (h : coefficientBytes t.coefficients = Bytes.zeros shortLength) : t = 0 := by
  have hzero : coefficientBytes (0 : Fp6).coefficients = Bytes.zeros shortLength := by
    decide +kernel
  apply Fp6.coefficients_injective
  exact coefficientBytes_inj rfl (h.trans hzero.symm)

theorem toShort_one : toShort 1 = Bytes.zeros shortLength := by
  rw [toShort, toShort?_one, Option.getD_some]

/-- The member with a torus coordinate is written by it. -/
theorem toShort_ofTorus {t : Fp6} (h : TargetMember (ofTorus t)) :
    toShort (ofTorus t) = coefficientBytes t.coefficients := by
  have htorus := torus?_ofTorus h
  have hne : ofTorus t ≠ 1 := by
    intro hone
    rw [hone, torus?, if_pos Fp12.one_c1] at htorus
    cases htorus
  rw [toShort, toShort?, if_neg hne, htorus, Option.map_some, Option.getD_some]

theorem toShort_of_ofShort? {bs : Bytes} {f : Fp12} (h : ofShort? bs = some f) :
    bs = toShort f ∧ TargetMember f := by
  rw [ofShort?] at h
  split_ifs at h with hlength hzeros
  · rw [Option.some.injEq] at h
    rw [← h, toShort_one]
    exact ⟨hzeros, .one⟩
  · have hlength : bs.length = 6 * Fp.width := of_not_not hlength
    simp only [Option.bind_eq_bind, Option.bind_eq_some_iff, coefficients?_eq_some_iff hlength,
      Fp6.ofCoefficients?_eq_some_iff, member?_eq_some_iff] at h
    obtain ⟨cs, ⟨-, rfl⟩, t, rfl, rfl, hmember⟩ := h
    exact ⟨(toShort_ofTorus hmember).symm, hmember⟩

theorem ofShort?_toShort {f : Fp12} (hf : TargetMember f) : ofShort? (toShort f) = some f := by
  by_cases h : f = 1
  · have hlength : (Bytes.zeros shortLength).length = shortLength := List.length_replicate
    rw [h, toShort_one, ofShort?, if_neg (not_not.mpr hlength), if_pos rfl]
  · obtain ⟨t, ht, hne, rfl⟩ := exists_toShort? hf h
    have hwidth : (coefficientBytes t.coefficients).length = 6 * Fp.width :=
      length_coefficientBytes t.coefficients
    have hlength : (coefficientBytes t.coefficients).length = shortLength := hwidth
    have hzeros : ¬ coefficientBytes t.coefficients = Bytes.zeros shortLength :=
      fun h ↦ hne (eq_zero_of_coefficientBytes h)
    rw [toShort, ht, Option.getD_some, ofShort?, if_neg (not_not.mpr hlength), if_neg hzeros]
    simp only [Option.bind_eq_bind, Option.bind_eq_some_iff, coefficients?_eq_some_iff hwidth,
      Fp6.ofCoefficients?_eq_some_iff, member?_eq_some_iff]
    exact ⟨t.coefficients, ⟨rfl, rfl⟩, t, rfl, rfl, hf⟩

theorem ofShort?_eq_some_iff {bs : Bytes} {f : Fp12} :
    ofShort? bs = some f ↔ bs = toShort f ∧ TargetMember f := by
  constructor
  · exact toShort_of_ofShort?
  · rintro ⟨rfl, hmember⟩
    exact ofShort?_toShort hmember

end TargetEncoding

end BilinearGroups.Bls12
