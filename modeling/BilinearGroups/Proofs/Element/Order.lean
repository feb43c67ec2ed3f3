import BilinearGroups.Proofs.Element.Comparison
import BilinearGroups.Proofs.Element.Powers

/-!
# The order of elements

Scalars of one context are ordered by their encodings, which all have the same width and start with
the most significant byte. So the order of the encodings is the order of the integers that they
spell, and since a scalar is determined by its integer, scalars that are in neither order are equal.
Elements that are not scalars of one context are in no order unless they are equal.

Equality looks at values and order at encodings. That the two agree on every backend, and that
together they are a partial order over all elements of all groups and contexts, is `order_lawful`.
-/

namespace BilinearGroups

open Bls12
open ExponentModel (elementOf)

variable {B : Backend}

/-! ## Strings of bytes -/

namespace Bytes

theorem compare_toNat (a b : UInt8) : compare a.toNat b.toNat = compare a b := by
  simp only [compare, compareOfLessAndEq, UInt8.lt_iff_toNat_lt, ← UInt8.toNat_inj]

/-- Of two numbers with a leading digit each, the leading digits are compared first. -/
theorem compare_leading {W m n x y : ℕ} (hx : x < W) (hy : y < W) :
    compare (x + W * m) (y + W * n) = (compare m n).then (compare x y) := by
  rcases lt_trichotomy m n with hlt | rfl | hgt
  · -- One step of the leading digit outweighs all that follows it.
    have hstep : W * m + W ≤ W * n := Nat.mul_le_mul_left W hlt
    rw [Nat.compare_eq_lt.mpr hlt, Nat.compare_eq_lt.mpr (by omega)]
    rfl
  · rw [Nat.compare_eq_eq.mpr rfl]
    simp only [compare, compareOfLessAndEq, Nat.add_lt_add_iff_right, Nat.add_right_cancel_iff]
    rfl
  · have hstep : W * n + W ≤ W * m := Nat.mul_le_mul_left W hgt
    rw [Nat.compare_eq_gt.mpr hgt, Nat.compare_eq_gt.mpr (by omega)]
    rfl

theorem toNatBE_lt (bs : Bytes) : toNatBE bs < 256 ^ bs.length := by
  have hlt := toNatLE_lt bs.reverse
  rwa [List.length_reverse] at hlt

end Bytes

namespace Element

open Bytes (toNatBE)

/-- Strings of one length are compared as the integers that they spell. -/
theorem compareBytes_eq_compare {as bs : Bytes} (h : as.length = bs.length) :
    compareBytes as bs = compare (toNatBE as) (toNatBE bs) := by
  induction as generalizing bs with
  | nil =>
    obtain rfl := List.eq_nil_of_length_eq_zero h.symm
    rfl
  | cons a as ih =>
    obtain ⟨b, bs, rfl⟩ := List.exists_cons_of_length_eq_add_one h.symm
    have hlength : as.length = bs.length := Nat.succ.inj h
    have has : toNatBE as < 256 ^ bs.length := hlength ▸ Bytes.toNatBE_lt as
    rw [compareBytes, ih hlength, ← Bytes.compare_toNat, Bytes.toNatBE_cons, Bytes.toNatBE_cons,
      hlength, Bytes.compare_leading has (Bytes.toNatBE_lt bs)]

/-- Strings are compared lexicographically. -/
theorem compareBytes_eq_lt_iff {as bs : Bytes} : compareBytes as bs = .lt ↔ as < bs := by
  induction as generalizing bs with
  | nil =>
    cases bs with
    | nil => exact iff_of_false nofun (List.not_lt_nil _)
    | cons b bs => exact iff_of_true rfl (List.nil_lt_cons b bs)
  | cons a as ih =>
    cases bs with
    | nil => exact iff_of_false nofun (List.not_lt_nil _)
    | cons b bs =>
      rw [compareBytes, Ordering.then_eq_lt, ih, Std.compare_eq_iff_eq,
        Std.LawfulLTCmp.eq_lt_iff_lt, List.cons_lt_cons_iff]

end Element

/-! ## Integers of scalars -/

theorem ScalarField.IsResidueField.value_injective {S : Type} {F : ScalarField S}
    (hF : F.IsResidueField) : Function.Injective F.value := by
  intro s t h
  rw [hF.value_eq, hF.value_eq] at h
  exact hF.bijective.1 (Residue.ext h)

namespace Element

variable {a b d : Element B}

/-- The elements are scalars of one context. -/
structure Commensurable (a b : Element B) : Prop where
  context : a.context.sameAs b.context = true
  left : a.group = .zr
  right : b.group = .zr

namespace Commensurable

theorem symm (h : a.Commensurable b) : b.Commensurable a :=
  ⟨Context.sameAs_symm h.context, h.right, h.left⟩

theorem trans (h : a.Commensurable b) (h' : b.Commensurable d) : a.Commensurable d :=
  ⟨Context.sameAs_trans h.context h'.context, h.left, h'.right⟩

/-- Scalars are commensurable with their equals. -/
theorem of_equal (ha : a.group = .zr) (h : a.equal b = true) : a.Commensurable b :=
  ⟨(equal_iff.mp h).1, ha, (group_eq_of_equal h).symm.trans ha⟩

end Commensurable

theorem integer_eq_of_equal (h : a.equal b = true) : a.integer = b.integer := by
  rw [integer, integer, toBytes, toBytes, (equal_iff.mp h).2]

section Scalars

variable (hF : B.scalars.IsResidueField)

include hF

theorem length_toBytes_of_zr (h : a.group = .zr) : a.toBytes.length = scalarWidth := by
  obtain ⟨s, hs⟩ := Value.exists_of h
  rw [toBytes, hs]
  exact (congrArg List.length (hF.toBytes s)).trans (Bytes.length_ofNatBE _ _)

theorem integer_lt (h : a.group = .zr) : a.integer < groupOrder := by
  obtain ⟨s, hs⟩ := Value.exists_of h
  rw [integer, toBytes, hs]
  exact hF.value_lt s

variable (h : a.Commensurable b)

include h

theorem compareBytes_toBytes :
    compareBytes a.toBytes b.toBytes = compare a.integer b.integer := by
  apply compareBytes_eq_compare
  rw [length_toBytes_of_zr hF h.left, length_toBytes_of_zr hF h.right]

theorem equal_iff_integer : a.equal b = true ↔ a.integer = b.integer := by
  obtain ⟨s, hs⟩ := Value.exists_of h.left
  obtain ⟨t, ht⟩ := Value.exists_of h.right
  rw [equal_iff_value h.context, integer, integer, toBytes, toBytes, hs, ht,
    Value.of_injective.eq_iff]
  exact hF.value_injective.eq_iff.symm

/-- Scalars of one context are compared by their integers. -/
theorem partialCompare_eq : a.partialCompare b = some (compare a.integer b.integer) := by
  rw [← compareBytes_toBytes hF h]
  obtain ⟨s, hs⟩ := Value.exists_of h.left
  obtain ⟨t, ht⟩ := Value.exists_of h.right
  rw [partialCompare, h.context, toBytes, toBytes, hs, ht]
  rfl

end Scalars

/-- Other elements are in no order, unless they are equal. -/
theorem partialCompare_of_not (h : ¬a.Commensurable b) :
    a.partialCompare b = if a.equal b = true then some .eq else none := by
  cases hcontext : a.context.sameAs b.context with
  | false =>
    obtain ⟨-, hequal, hpartial, -⟩ := comparisons_of_foreign hcontext
    rw [hequal, hpartial]
    rfl
  | true =>
    have hgroup : a.group ≠ .zr ∨ b.group ≠ .zr := by
      rw [← not_and_or]
      exact fun hzr ↦ h ⟨hcontext, hzr.1, hzr.2⟩
    simp only [partialCompare_of_ne hgroup, equal_iff, hcontext, true_and]
    rfl

/-! ## Laws -/

theorem equal_comm (a b : Element B) : a.equal b = b.equal a :=
  Bool.eq_iff_iff.mpr ⟨equal_equivalence.symm, equal_equivalence.symm⟩

/-- Elements that are in any order without being scalars of one context are equal. -/
theorem equal_of_partialCompare (hab : ¬a.Commensurable b) (h : a.partialCompare b ≠ none) :
    a.equal b = true := by
  rw [partialCompare_of_not hab] at h
  by_contra hne
  exact h (if_neg hne)

/-- Only elements of one group of one context are in any order. -/
theorem compatible_of_partialCompare (h : a.partialCompare b ≠ none) :
    a.context.sameAs b.context = true ∧ a.group = b.group := by
  by_cases hab : a.Commensurable b
  · exact ⟨hab.context, hab.left.trans hab.right.symm⟩
  · have hequal := equal_of_partialCompare hab h
    exact ⟨(equal_iff.mp hequal).1, group_eq_of_equal hequal⟩

section Laws

variable (hF : B.scalars.IsResidueField)

include hF

/-- Elements compare as equal exactly if they are equal. -/
theorem partialCompare_eq_eq_iff : a.partialCompare b = some .eq ↔ a.equal b = true := by
  by_cases hab : a.Commensurable b
  · rw [partialCompare_eq hF hab, equal_iff_integer hF hab, Option.some_inj, Nat.compare_eq_eq]
  · rw [partialCompare_of_not hab]
    split_ifs with hequal
    · exact iff_of_true rfl hequal
    · exact iff_of_false nofun hequal

theorem partialCompare_swap (a b : Element B) :
    b.partialCompare a = (a.partialCompare b).map Ordering.swap := by
  by_cases hab : a.Commensurable b
  · rw [partialCompare_eq hF hab, partialCompare_eq hF hab.symm, Option.map_some, Nat.compare_swap]
  · have hba : ¬b.Commensurable a := fun h ↦ hab h.symm
    rw [partialCompare_of_not hab, partialCompare_of_not hba, equal_comm b a]
    split_ifs <;> rfl

/-- An element is smaller than another exactly if both are scalars of one context and its integer is
smaller. -/
theorem less_iff : a.less b = true ↔ a.Commensurable b ∧ a.integer < b.integer := by
  rw [less, decide_eq_true_iff]
  by_cases hab : a.Commensurable b
  · rw [partialCompare_eq hF hab, Option.some_inj, Nat.compare_eq_lt, and_iff_right hab]
  · refine iff_of_false ?_ fun h ↦ hab h.1
    rw [partialCompare_of_not hab]
    split_ifs <;> decide

theorem less_iff_toBytes (hab : a.Commensurable b) :
    a.less b = true ↔ a.toBytes < b.toBytes := by
  rw [less_iff hF, and_iff_right hab, ← Nat.compare_eq_lt, ← compareBytes_toBytes hF hab,
    compareBytes_eq_lt_iff]

theorem less_self (a : Element B) : a.less a = false := by
  rw [← Bool.not_eq_true, less_iff hF]
  exact fun h ↦ Nat.lt_irrefl _ h.2

theorem less_asymm (h : a.less b = true) : b.less a = false := by
  rw [← Bool.not_eq_true, less_iff hF]
  exact fun h' ↦ Nat.lt_asymm ((less_iff hF).mp h).2 h'.2

theorem less_trans (h : a.less b = true) (h' : b.less d = true) : a.less d = true := by
  obtain ⟨hab, hlt⟩ := (less_iff hF).mp h
  obtain ⟨hbd, hlt'⟩ := (less_iff hF).mp h'
  exact (less_iff hF).mpr ⟨hab.trans hbd, hlt.trans hlt'⟩

theorem less_of_less_of_equal (h : a.less b = true) (h' : b.equal d = true) :
    a.less d = true := by
  obtain ⟨hab, hlt⟩ := (less_iff hF).mp h
  rw [integer_eq_of_equal h'] at hlt
  exact (less_iff hF).mpr ⟨hab.trans (.of_equal hab.right h'), hlt⟩

theorem less_of_equal_of_less (h : a.equal b = true) (h' : b.less d = true) :
    a.less d = true := by
  obtain ⟨hbd, hlt⟩ := (less_iff hF).mp h'
  rw [← integer_eq_of_equal h] at hlt
  have ha : a.group = .zr := (group_eq_of_equal h).trans hbd.left
  exact (less_iff hF).mpr ⟨(Commensurable.of_equal ha h).trans hbd, hlt⟩

/-- Scalars of one context are in some order. -/
theorem less_or_equal_or_less (hab : a.Commensurable b) :
    a.less b = true ∨ a.equal b = true ∨ b.less a = true := by
  rw [less_iff hF, less_iff hF, equal_iff_integer hF hab, and_iff_right hab,
    and_iff_right hab.symm]
  exact Nat.lt_trichotomy _ _

end Laws

/-- On every backend, equality is an equivalence and order a strict partial order that goes with it,
over all elements of all groups and contexts. Elements compare as equal if they are equal, the other
way round they compare the other way round, and only elements of one group of one context compare at
all. Scalars of one context always do: they compare as their integers, which are below the group
order, and as the strings that encode them. Elsewhere only equal elements compare. The comparison
that may be refused is refused across contexts, and within a context across groups; otherwise it
says whether the elements are equal. -/
theorem order_lawful {M : B.Membership} (hM : M.Supported) :
    (Equivalence fun a b : Element B ↦ a.equal b = true) ∧
    (∀ a : Element B, a.less a = false) ∧
    (∀ a b : Element B, a.less b = true → b.less a = false) ∧
    (∀ a b d : Element B, (a.less b = true → b.less d = true → a.less d = true) ∧
      (a.less b = true → b.equal d = true → a.less d = true) ∧
      (a.equal b = true → b.less d = true → a.less d = true)) ∧
    ∀ a b : Element B,
      (a.partialCompare b = some .eq ↔ a.equal b = true) ∧
      b.partialCompare a = (a.partialCompare b).map Ordering.swap ∧
      (a.partialCompare b ≠ none → a.context.sameAs b.context = true ∧ a.group = b.group) ∧
      (a.context.sameAs b.context = true → a.group = .zr → b.group = .zr →
        a.integer < groupOrder ∧ a.partialCompare b = some (compare a.integer b.integer) ∧
        (a.less b = true ∨ a.equal b = true ∨ b.less a = true) ∧
        (a.less b = true ↔ a.integer < b.integer) ∧
        (a.less b = true ↔ a.toBytes < b.toBytes)) ∧
      (a.group ≠ .zr → a.partialCompare b ≠ none → a.equal b = true) ∧
      (∀ v, a.compareEqual b = .ok v ↔
        a.context.sameAs b.context = true ∧ a.group = b.group ∧ v = a.equal b) ∧
      (a.context.sameAs b.context = false → a.compareEqual b = .error .wrongContext) ∧
      (a.context.sameAs b.context = true → a.group ≠ b.group →
        a.compareEqual b = .error (.wrongGroup a.group b.group)) := by
  have hF := hM.moduleLaws.scalars
  refine ⟨equal_equivalence, less_self hF, fun a b ↦ less_asymm hF, fun a b d ↦
    ⟨less_trans hF, less_of_less_of_equal hF, less_of_equal_of_less hF⟩, fun a b ↦
    ⟨partialCompare_eq_eq_iff hF, partialCompare_swap hF a b, compatible_of_partialCompare, ?_, ?_,
      fun v ↦ compareEqual_eq_ok_iff, ?_, ?_⟩⟩
  · intro hcontext ha hb
    have hab : a.Commensurable b := ⟨hcontext, ha, hb⟩
    refine ⟨integer_lt hF ha, partialCompare_eq hF hab, less_or_equal_or_less hF hab, ?_,
      less_iff_toBytes hF hab⟩
    rw [less_iff hF, and_iff_right hab]
  · intro hg
    exact equal_of_partialCompare fun hab ↦ hg hab.left
  · intro hcontext
    rw [compareEqual_eq, if_pos hcontext]
  · intro hcontext hgroup
    rw [compareEqual_eq, hcontext, if_neg (by decide), if_pos hgroup]

/-- Ten is smaller than eleven and eleven is smaller than minus one, so ten is smaller than minus
one; points are in no order, and a comparison with a scalar of another context is refused. -/
theorem order_lawful_samples : exponentMembership.Supported ∧
    (elementOf .zr 10).less (elementOf .zr 11) = true ∧
    (elementOf .zr 11).less (elementOf .zr (-1)) = true ∧
    (elementOf .zr 10).less (elementOf .zr (-1)) = true ∧
    (elementOf .zr (-1)).less (elementOf .zr 10) = false ∧
    (elementOf .g1 3).partialCompare (elementOf .g1 4) = none ∧
    ∃ foreign : Element exponentModel, foreign.value = (elementOf .zr 3).value ∧
      (elementOf .zr 3).compareEqual foreign = .error .wrongContext := by
  obtain ⟨-, -, hasymm, htrans, hpairs⟩ := order_lawful (B := exponentModel) .exponent
  have hscalars (x y : Fr) := (hpairs (elementOf .zr x) (elementOf .zr y)).2.2.2.1 rfl rfl rfl
  have hless (x y : Fr) : (elementOf .zr x).less (elementOf .zr y) = true ↔
      (elementOf .zr x).integer < (elementOf .zr y).integer := (hscalars x y).2.2.2.1
  have hfirst : (elementOf .zr 10).less (elementOf .zr 11) = true := (hless 10 11).mpr (by decide)
  have hsecond : (elementOf .zr 11).less (elementOf .zr (-1)) = true :=
    (hless 11 (-1)).mpr (by decide)
  have hthird : (elementOf .zr 10).less (elementOf .zr (-1)) = true :=
    (htrans _ _ _).1 hfirst hsecond
  obtain ⟨-, -, -, -, hequal, -⟩ := hpairs (elementOf .g1 3) (elementOf .g1 4)
  let foreign : Element exponentModel :=
    ⟨{ Context.standard exponentModel with creation := 1 }, (elementOf .zr 3).value⟩
  obtain ⟨-, -, -, -, -, -, hforeign, -⟩ := hpairs (elementOf .zr 3) foreign
  refine ⟨.exponent, hfirst, hsecond, hthird, hasymm _ _ hthird, ?_, foreign, rfl, hforeign rfl⟩
  by_contra hordered
  exact absurd (hequal nofun hordered) (by decide)

end Element

end BilinearGroups
