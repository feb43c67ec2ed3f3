import Mathlib.Data.List.Forall2
import BilinearGroups.Proofs.Backend.Instances
import BilinearGroups.Proofs.Element.Result
import BilinearGroups.Proofs.Pairing.Operands

/-!
# Products of pairings

A product of pairings is computed at once, on points that are taken from the operands beforehand.
What it gives is nevertheless what a loop gives that pairs the operands one after the other and
multiplies as it goes, and that holds for operands which are refused as well: the first pair that
is refused decides, here as there.

Everything follows from two equations. The product is a function of the list of points of the
operands (`pairingProduct_eq`), and the loop is the same function of the same list
(`multiplyPairings_result`).
-/

namespace BilinearGroups

open Element Context

namespace Context

variable {B : Backend}

/-! ## The loop -/

/-- The element is multiplied by the pairings of corresponding operands, one after the other. -/
def multiplyPairings (c : Context B) : List (Element B) → List (Element B) → Update B Unit
  | a :: as, b :: bs => do
    combineWith .mul (← c.pair a b)
    c.multiplyPairings as bs
  | _, _ => pure ()

/-- What the pairings make of the neutral element, one after the other. -/
def pairingLoop (c : Context B) (as bs : List (Element B)) : Except Error (Element B) := do
  (c.multiplyPairings as bs).result (← setOne.result (fresh c .gt))

variable {c : Context B} {a b : Element B} {as bs : List (Element B)} {t : B.Target}
  {points : List (B.G1 × B.G2)}

/-- The product of the pairings of points, begun with a target group element. -/
def multiplyPoints (t : B.Target) (points : List (B.G1 × B.G2)) : B.Target :=
  (points.map fun point ↦ B.pairing point.1 point.2).foldl B.target.combine t

theorem checkCompatible_target (c : Context B) (s t : B.Target) :
    checkCompatible (⟨c, .gt s⟩ : Element B) ⟨c, .gt t⟩ = .ok () := by
  simp [checkCompatible, sameAs, group, Value.group]

/-- Target group elements of one context are always multiplied. -/
theorem combineWith_mul_result (c : Context B) (s t : B.Target) :
    (combineWith .mul ⟨c, .gt t⟩).result ⟨c, .gt s⟩ = .ok ⟨c, .gt (B.target.combine s t)⟩ := by
  rw [combineWith_result, checkCompatible_target]
  rfl

theorem combine_mul_result (c : Context B) (s t : B.Target) :
    (Element.combine .mul ⟨c, .gt s⟩ ⟨c, .gt t⟩).result (fresh c .gt)
      = .ok ⟨c, .gt (B.target.combine s t)⟩ := by
  rw [combine_result, fresh, Value.identity, checkCompatible_target, checkCompatible_target]
  rfl

/-- The loop multiplies by the pairings of the points that the operands give, as long as there are
any, and it fails where the points are refused. -/
theorem multiplyPairings_result (t : B.Target) (as bs : List (Element B)) :
    (c.multiplyPairings as bs).result ⟨c, .gt t⟩
      = (c.allSourcePoints as bs).map fun points ↦ ⟨c, .gt (multiplyPoints t points)⟩ := by
  induction as, bs using multiplyPairings.induct generalizing t with
  | case1 a as b bs ih =>
    rw [multiplyPairings, allSourcePoints, Update.result_lift, pair_eq]
    cases c.sourcePoints a b with
    | error reason => rfl
    | ok point =>
      refine (Update.result_seq _ _).trans ?_
      rw [combineWith_mul_result]
      refine (ih _).trans ?_
      show _ = Except.map _ (c.allSourcePoints as bs >>= _)
      cases c.allSourcePoints as bs <;> rfl
  | case2 as bs h =>
    have hloop : c.multiplyPairings as bs = pure () := by
      rw [multiplyPairings]
      exact h
    have hpoints : c.allSourcePoints as bs = .ok [] := by
      rw [allSourcePoints]
      exact h
    rw [hloop, hpoints]
    rfl

theorem pairingLoop_eq (c : Context B) (as bs : List (Element B)) :
    c.pairingLoop as bs = (c.allSourcePoints as bs).map fun points ↦
      ⟨c, .gt (multiplyPoints B.target.identity points)⟩ :=
  multiplyPairings_result B.target.identity as bs

/-! ## The product -/

/-- The product of the pairings of pairs of points. -/
theorem pairingProduct_points (hB : B.MultipliesPairings) (points : List (B.G1 × B.G2)) :
    B.pairingProduct (points.map Prod.fst) (points.map Prod.snd)
      = .ok (multiplyPoints B.target.identity points) := by
  rw [hB _ _ (by rw [List.length_map, List.length_map]), List.zipWith_map, List.zipWith_self]
  rfl

/-- Where the lists have one length and are not empty, only operands are refused. -/
theorem pairingProduct_eq (hB : B.MultipliesPairings) (hlength : as.length = bs.length)
    (hne : as ≠ []) : c.pairingProduct as bs = (c.allSourcePoints as bs).map fun points ↦
      ⟨c, .gt (multiplyPoints B.target.identity points)⟩ := by
  rw [pairingProduct, if_neg (not_not.mpr hlength), if_neg (by rwa [List.isEmpty_iff])]
  cases c.allSourcePoints as bs with
  | error reason => rfl
  | ok points =>
    simp only [bind, Except.bind]
    rw [pairingProduct_points hB]
    rfl

/-- The points of operands are those of the single pairs. -/
theorem allSourcePoints_eq_ok_iff (c : Context B) (as bs : List (Element B))
    (points : List (B.G1 × B.G2)) : c.allSourcePoints as bs = .ok points ↔
      List.Forall₂ (fun operands point ↦ c.sourcePoints operands.1 operands.2 = .ok point)
        (as.zip bs) points := by
  induction as, bs using allSourcePoints.induct generalizing points with
  | case1 a as b bs ih =>
    rw [List.zip_cons_cons, List.forall₂_cons_left_iff]
    constructor
    · intro h
      obtain ⟨point, hpoint, h⟩ := exists_of_bind_eq_ok h
      obtain ⟨rest, hrest, h⟩ := exists_of_bind_eq_ok h
      cases h
      exact ⟨point, rest, hpoint, (ih rest).mp hrest, rfl⟩
    · rintro ⟨point, rest, hpoint, hrest, rfl⟩
      rw [allSourcePoints, hpoint, (ih rest).mpr hrest]
      rfl
  | case2 as bs h =>
    have hzip : as.zip bs = [] := by
      rw [List.zip_eq_nil_iff]
      cases as with
      | nil => exact .inl rfl
      | cons a as =>
        cases bs with
        | nil => exact .inr rfl
        | cons b bs => exact (h a as b bs rfl rfl).elim
    rw [hzip, List.forall₂_nil_left_iff, allSourcePoints, Except.ok.injEq, eq_comm]
    exact h

/-- The first operands that are refused decide. -/
theorem allSourcePoints_eq_error {i : ℕ} {reason : Error} (ha : as[i]? = some a)
    (hb : bs[i]? = some b) (h : c.sourcePoints a b = .error reason)
    (hbefore : ∀ j < i, ∀ a b, as[j]? = some a → bs[j]? = some b →
      ∃ point, c.sourcePoints a b = .ok point) : c.allSourcePoints as bs = .error reason := by
  induction as, bs using allSourcePoints.induct generalizing i with
  | case1 a' as b' bs ih =>
    rw [allSourcePoints]
    cases i with
    | zero =>
      cases ha
      cases hb
      rw [h]
      rfl
    | succ i =>
      obtain ⟨point, hpoint⟩ := hbefore 0 i.succ_pos a' b' rfl rfl
      rw [hpoint, ih ha hb fun j hj ↦ hbefore (j + 1) (Nat.succ_lt_succ hj)]
      rfl
  | case2 as bs hnone =>
    cases as with
    | nil => cases ha
    | cons a as =>
      cases bs with
      | nil => cases hb
      | cons b bs => exact (hnone a as b bs rfl rfl).elim

theorem exists_allSourcePoints (h : ∀ (i : ℕ) a b, as[i]? = some a → bs[i]? = some b →
    ∃ point, c.sourcePoints a b = .ok point) :
    ∃ points, c.allSourcePoints as bs = .ok points := by
  induction as, bs using allSourcePoints.induct with
  | case1 a as b bs ih =>
    obtain ⟨point, hpoint⟩ := h 0 a b rfl rfl
    obtain ⟨points, hpoints⟩ := ih fun i ↦ h (i + 1)
    refine ⟨point :: points, ?_⟩
    rw [allSourcePoints, hpoint, hpoints]
    rfl
  | case2 as bs hnone => exact ⟨[], allSourcePoints.eq_2 c as bs hnone⟩

/-- Operands are only refused because a pair of them is. -/
theorem exists_of_allSourcePoints_eq_error {reason : Error}
    (h : c.allSourcePoints as bs = .error reason) : ∃ a b, c.sourcePoints a b = .error reason := by
  induction as, bs using allSourcePoints.induct with
  | case1 a as b bs ih =>
    rw [allSourcePoints] at h
    cases hfirst : c.sourcePoints a b with
    | error reason' =>
      rw [hfirst] at h
      cases h
      exact ⟨a, b, hfirst⟩
    | ok point =>
      rw [hfirst] at h
      cases hrest : c.allSourcePoints as bs with
      | error reason' =>
        rw [hrest] at h
        cases h
        exact ih hrest
      | ok points =>
        rw [hrest] at h
        cases h
  | case2 as bs hnone =>
    rw [allSourcePoints.eq_2 c as bs hnone] at h
    cases h

/-- The backend has nothing to say about the lists of points. -/
theorem pairingProduct_ne_backend (hB : B.MultipliesPairings) (c : Context B)
    (as bs : List (Element B)) (reason : BackendError) :
    c.pairingProduct as bs ≠ .error (.backend reason) := by
  by_cases hlength : as.length = bs.length
  · by_cases hne : as = []
    · rw [pairingProduct, if_neg (not_not.mpr hlength), if_pos (List.isEmpty_iff.mpr hne)]
      exact nofun
    · rw [pairingProduct_eq hB hlength hne]
      intro h
      cases hpoints : c.allSourcePoints as bs with
      | error reason' =>
        rw [hpoints] at h
        obtain rfl : reason' = .backend reason := Except.error.inj h
        obtain ⟨a, b, hpair⟩ := exists_of_allSourcePoints_eq_error hpoints
        exact c.sourcePoints_ne_backend a b reason hpair
      | ok points =>
        rw [hpoints] at h
        cases h
  · rw [pairingProduct, if_pos hlength]
    exact nofun

/-! ## Products in other orders -/

theorem pairingProduct_eq_ok_iff (hB : B.MultipliesPairings) (c : Context B)
    (as bs : List (Element B)) (e : Element B) : c.pairingProduct as bs = .ok e ↔
      as.length = bs.length ∧ as ≠ [] ∧ ∃ points, c.allSourcePoints as bs = .ok points ∧
        e = ⟨c, .gt (multiplyPoints B.target.identity points)⟩ := by
  by_cases hlength : as.length = bs.length
  · by_cases hne : as = []
    · rw [pairingProduct, if_neg (not_not.mpr hlength), hne]
      simp
    · rw [pairingProduct_eq hB hlength hne]
      constructor
      · intro h
        exact ⟨hlength, hne, exists_of_map_eq_ok h⟩
      · rintro ⟨-, -, points, hpoints, rfl⟩
        rw [hpoints]
        rfl
  · rw [pairingProduct, if_pos hlength]
    simp [hlength]

theorem multiplyPoints_perm (hC : B.IsCommutative) {points points' : List (B.G1 × B.G2)}
    (h : points.Perm points') (t : B.Target) :
    multiplyPoints t points = multiplyPoints t points' := by
  have : RightCommutative B.target.combine := ⟨fun s t u ↦ by
    rw [hC.assoc, hC.comm t, ← hC.assoc]⟩
  exact (h.map _).foldl_eq t

theorem multiplyPoints_eq (hC : B.IsCommutative) (t : B.Target) (points : List (B.G1 × B.G2)) :
    multiplyPoints t points
      = B.target.combine t (multiplyPoints B.target.identity points) := by
  have : Std.Associative B.target.combine := ⟨hC.assoc⟩
  have hidentity : t = B.target.combine t B.target.identity := by rw [hC.comm, hC.identity]
  conv_lhs => rw [hidentity]
  exact List.foldl_assoc

theorem multiplyPoints_append (hC : B.IsCommutative) (points points' : List (B.G1 × B.G2)) :
    multiplyPoints B.target.identity (points ++ points')
      = B.target.combine (multiplyPoints B.target.identity points)
          (multiplyPoints B.target.identity points') := by
  rw [← multiplyPoints_eq hC, multiplyPoints, List.map_append, List.foldl_append]
  rfl

/-- The order of the pairs does not matter to a product. -/
theorem pairingProduct_perm (hB : B.MultipliesPairings) (hC : B.IsCommutative)
    {as' bs' : List (Element B)} (hperm : (as.zip bs).Perm (as'.zip bs'))
    (hlength' : as'.length = bs'.length) {e : Element B} (he : c.pairingProduct as bs = .ok e) :
    c.pairingProduct as' bs' = .ok e := by
  obtain ⟨hlength, hne, points, hpoints, rfl⟩ := (pairingProduct_eq_ok_iff hB c as bs e).mp he
  obtain ⟨points', hpoints', hperm'⟩ :=
    List.perm_comp_forall₂ hperm.symm ((allSourcePoints_eq_ok_iff c as bs points).mp hpoints)
  refine (pairingProduct_eq_ok_iff hB c as' bs' _).mpr ⟨hlength', ?_, points',
    (allSourcePoints_eq_ok_iff c as' bs' points').mpr hpoints', ?_⟩
  · have hsize := hperm.length_eq
    rw [List.length_zip, List.length_zip, ← hlength, ← hlength', min_self, min_self] at hsize
    rwa [ne_eq, ← List.length_eq_zero_iff, ← hsize, List.length_eq_zero_iff]
  · rw [multiplyPoints_perm hC hperm']

/-- The product of two lists of pairs is the product of the products. -/
theorem pairingProduct_append (hB : B.MultipliesPairings) (hC : B.IsCommutative)
    {as' bs' : List (Element B)} {e e' : Element B} (he : c.pairingProduct as bs = .ok e)
    (he' : c.pairingProduct as' bs' = .ok e') :
    ∃ p, c.pairingProduct (as ++ as') (bs ++ bs') = .ok p ∧
      (Element.combine .mul e e').result (fresh c .gt) = .ok p := by
  obtain ⟨hlength, hne, points, hpoints, rfl⟩ := (pairingProduct_eq_ok_iff hB c as bs e).mp he
  obtain ⟨hlength', -, points', hpoints', rfl⟩ := (pairingProduct_eq_ok_iff hB c as' bs' e').mp he'
  refine ⟨_, (pairingProduct_eq_ok_iff hB c _ _ _).mpr ⟨?_, ?_, points ++ points', ?_, rfl⟩, ?_⟩
  · rw [List.length_append, List.length_append, hlength, hlength']
  · exact List.append_ne_nil_of_left_ne_nil hne as'
  · rw [allSourcePoints_eq_ok_iff] at hpoints hpoints' ⊢
    rw [List.zip_append hlength]
    exact List.rel_append hpoints hpoints'
  · rw [multiplyPoints_append hC]
    exact combine_mul_result c _ _

end Context

/-- Over every backend, and for all lists of elements of whatever groups and contexts: a product of
pairings fails for lists of different lengths, whether empty or not, then for empty ones, and is
otherwise what the loop of single pairings gives. So it fails as the first pair does that is
refused, and succeeds if none is. The backend never refuses, the order of the pairs does not matter,
and the product of concatenated lists is the product of the products.

Of the backend it is assumed that its product of pairings is the product of the single ones, in a
commutative group. This is so for each of the three backends. -/
theorem pairingProduct_agrees_with_loop :
    ((exponentModel.MultipliesPairings ∧ exponentModel.IsCommutative) ∧
      (torusBackend.MultipliesPairings ∧ torusBackend.IsCommutative) ∧
      coefficientBackend.MultipliesPairings ∧ coefficientBackend.IsCommutative) ∧
    ∀ B : Backend, B.MultipliesPairings → B.IsCommutative →
      ∀ (c : Context B) (as bs : List (Element B)),
        (as.length ≠ bs.length →
          c.pairingProduct as bs = .error (.lengthMismatch as.length bs.length)) ∧
        (as = [] → bs = [] → c.pairingProduct as bs = .error .emptyProduct) ∧
        (as.length = bs.length → as ≠ [] →
          c.pairingProduct as bs = c.pairingLoop as bs ∧
          (∀ (i : ℕ) a b reason, as[i]? = some a → bs[i]? = some b → c.pair a b = .error reason →
            (∀ j < i, ∀ a b, as[j]? = some a → bs[j]? = some b → ∃ e, c.pair a b = .ok e) →
            c.pairingProduct as bs = .error reason) ∧
          ((∀ (i : ℕ) a b, as[i]? = some a → bs[i]? = some b → ∃ e, c.pair a b = .ok e) →
            ∃ t, c.pairingProduct as bs = .ok ⟨c, .gt t⟩)) ∧
        (∀ reason, c.pairingProduct as bs ≠ .error (.backend reason)) ∧
        (∀ e as' bs', c.pairingProduct as bs = .ok e → (as.zip bs).Perm (as'.zip bs') →
          as'.length = bs'.length → c.pairingProduct as' bs' = .ok e) ∧
        (∀ e as' bs' e', c.pairingProduct as bs = .ok e → c.pairingProduct as' bs' = .ok e' →
          ∃ p, c.pairingProduct (as ++ as') (bs ++ bs') = .ok p ∧
            (Element.combine .mul e e').result (fresh c .gt) = .ok p) := by
  refine ⟨⟨⟨exponentModel_multipliesPairings, exponentModel_isCommutative⟩,
    ⟨torusBackend_multipliesPairings, torusBackend_isCommutative⟩,
    coefficientBackend_multipliesPairings, coefficientBackend_isCommutative⟩, ?_⟩
  intro B hB hC c as bs
  refine ⟨fun hlength ↦ if_pos hlength, ?_, fun hlength hne ↦ ⟨?_, ?_, ?_⟩, ?_, ?_, ?_⟩
  · rintro rfl rfl
    rfl
  · rw [pairingProduct_eq hB hlength hne, pairingLoop_eq]
  · intro i a b reason ha hb hfails hbefore
    rw [pair_eq_error_iff] at hfails
    simp only [exists_pair_iff] at hbefore
    rw [pairingProduct_eq hB hlength hne, allSourcePoints_eq_error ha hb hfails hbefore]
    rfl
  · intro hpairs
    simp only [exists_pair_iff] at hpairs
    obtain ⟨points, hpoints⟩ := exists_allSourcePoints hpairs
    rw [pairingProduct_eq hB hlength hne, hpoints]
    exact ⟨_, rfl⟩
  · exact pairingProduct_ne_backend hB c as bs
  · intro e as' bs' he hperm hlength'
    exact pairingProduct_perm hB hC hperm hlength' he
  · intro e as' bs' e' he he'
    exact pairingProduct_append hB hC he he'

open ExponentModel (elementOf)

theorem pairingProduct_agrees_with_loop_points :
    let c : Context exponentModel := .standard _
    let as := [elementOf .g1 2, elementOf .g1 5]
    let bs := [elementOf .g2 3, elementOf .g2 7]
    c.pairingProduct as [] = .error (.lengthMismatch 2 0) ∧
      c.pairingProduct [] [] = .error .emptyProduct ∧
      c.pairingProduct as bs = c.pairingLoop as bs ∧
      c.pairingProduct as bs = .ok (elementOf .gt 41) ∧
      c.pairingProduct as.reverse bs.reverse = .ok (elementOf .gt 41) ∧
      c.pairingProduct (as ++ [elementOf .zr 1]) (bs ++ [elementOf .g2 1])
        = .error (.wrongGroup .g1 .zr) := by
  intro c as bs
  have hmodel := pairingProduct_agrees_with_loop.2 exponentModel exponentModel_multipliesPairings
    exponentModel_isCommutative c
  have hproduct : c.pairingProduct as bs = .ok (elementOf .gt 41) := rfl
  obtain ⟨-, -, hloop, -, hperm, -⟩ := hmodel as bs
  obtain ⟨-, -, hrefused, -, -, -⟩ := hmodel (as ++ [elementOf .zr 1]) (bs ++ [elementOf .g2 1])
  refine ⟨(hmodel as []).1 nofun, (hmodel [] []).2.1 rfl rfl, (hloop rfl nofun).1, hproduct,
    hperm _ _ _ hproduct (List.reverse_perm _).symm rfl, ?_⟩
  refine (hrefused rfl nofun).2.1 2 _ _ _ rfl rfl rfl ?_
  intro j hj a b ha hb
  obtain rfl | rfl : j = 0 ∨ j = 1 := by omega
  all_goals
    cases ha
    cases hb
    exact ⟨_, rfl⟩

end BilinearGroups
