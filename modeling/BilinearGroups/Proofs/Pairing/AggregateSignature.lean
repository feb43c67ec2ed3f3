import BilinearGroups.Proofs.Pairing.Bilinear
import BilinearGroups.Proofs.Pairing.Product

/-!
# Aggregate signatures

A signature is the hash of a message raised to a secret, and signatures are aggregated by adding
them up. A verifier knows the hashes and the public keys only. One product of pairings tells whether
a point is the aggregate: the hashes go with the negated keys, and the point with the base of the
keys. It is trivial exactly for the aggregate, as the pairing is not degenerate and the exponents
are a field. In exponents the product is

`w · γ · (σ - ∑ kᵢ hᵢ)`

where `σ`, `γ`, `kᵢ` and `hᵢ` are those of the point, the base, the secrets and the hashes, and `w`
is a factor that is not zero.
-/

namespace BilinearGroups

open Bls12 Element Context

variable {B : Backend} {M : B.Membership}

/-- The element belongs to the context and to a group. -/
structure Context.Contains (M : B.Membership) (c : Context B) (g : Group) (e : Element B) :
    Prop where
  context : c.sameAs e.context = true
  group : e.group = g
  member : M.Holds e.value

theorem Context.Contains.exists_exponent (hG : B.GroupLaws M) {c : Context B} {g : Group}
    {e : Element B} (he : c.Contains M g e) : ∃ x, e.HasExponent c g x := by
  obtain ⟨x, hx⟩ := HasExponent.exists_of_holds hG he.context he.member
  exact ⟨x, he.group ▸ hx⟩

/-! ## Signing and verifying -/

/-- The hash of a message and the secret it is signed with. -/
structure Signer (B : Backend) where
  /-- The hash of the message. -/
  hash : Element B
  /-- The secret. -/
  secret : Element B

namespace Signer

/-- The public key to the secret. -/
def publicKey (c : Context B) (base : Element B) (s : Signer B) : Except Error (Element B) :=
  (powScalar base s.secret).result (fresh c .g2)

/-- The negative of the public key. -/
def negatedKey (c : Context B) (base : Element B) (s : Signer B) : Except Error (Element B) := do
  (neg (← s.publicKey c base)).result (fresh c .g2)

/-- The signature of the message. -/
def signature (c : Context B) (s : Signer B) : Except Error (Element B) :=
  (powScalar s.hash s.secret).result (fresh c .g1)

/-- The sum of the signatures, begun with an element. -/
def aggregateFrom (c : Context B) : (acc : Element B) → List (Signer B) → Except Error (Element B)
  | acc, [] => .ok acc
  | acc, s :: signers => do
    aggregateFrom c (← (combineWith .add (← s.signature c)).result acc) signers

/-- The sum of the signatures. -/
def aggregate (c : Context B) (signers : List (Signer B)) : Except Error (Element B) :=
  aggregateFrom c (fresh c .g1) signers

/-- The negatives of the public keys. -/
def negatedKeys (c : Context B) (base : Element B) :
    List (Signer B) → Except Error (List (Element B))
  | [] => .ok []
  | s :: signers => return (← s.negatedKey c base) :: (← negatedKeys c base signers)

/-- The product of pairings that tells whether a point is the aggregate. -/
def check (c : Context B) (base : Element B) (signers : List (Signer B)) (sum : Element B) :
    Except Error (Element B) := do
  let keys ← negatedKeys c base signers
  c.pairingProduct (signers.map hash ++ [sum]) (keys ++ [base])

/-! ## Exponents -/

/-- The hash and the secret have exponents. -/
structure HasExponents (c : Context B) (s : Signer B) (p : Fr × Fr) : Prop where
  hash : s.hash.HasExponent c .g1 p.1
  secret : s.secret.HasExponent c .zr p.2

/-- The exponent of the sum of the signatures. -/
def exponentSum (ps : List (Fr × Fr)) : Fr := (ps.map fun p ↦ p.2 * p.1).sum

variable {c : Context B} {base sum : Element B} {s : Signer B} {signers : List (Signer B)}
  {p : Fr × Fr} {ps : List (Fr × Fr)} {x y : Fr}

section Laws

variable (hG : B.GroupLaws M)

include hG

theorem exists_publicKey (hs : s.HasExponents c p) (hbase : base.HasExponent c .g2 y) :
    ∃ key, s.publicKey c base = .ok key ∧ key.HasExponent c .g2 (p.2 * y) := by
  have hfresh : (fresh c .g2).HasExponent c .g2 0 := .fresh hG .g2
  obtain ⟨v, hkey, hv⟩ := hbase.powScalar hG hs.secret hfresh
  exact ⟨_, hkey, hfresh.withValue hv⟩

theorem exists_negatedKey (hs : s.HasExponents c p) (hbase : base.HasExponent c .g2 y) :
    ∃ key, s.negatedKey c base = .ok key ∧ key.HasExponent c .g2 (-(p.2 * y)) := by
  obtain ⟨key, hkey, hexponent⟩ := exists_publicKey hG hs hbase
  have hfresh : (fresh c .g2).HasExponent c .g2 0 := .fresh hG .g2
  obtain ⟨v, hneg, hv⟩ := hexponent.neg hG hfresh
  refine ⟨_, ?_, hfresh.withValue hv⟩
  rw [negatedKey, hkey]
  exact hneg

theorem exists_negatedKeys (hsigners : List.Forall₂ (HasExponents c) signers ps)
    (hbase : base.HasExponent c .g2 y) : ∃ keys, negatedKeys c base signers = .ok keys ∧
      List.Forall₂ (fun key p ↦ key.HasExponent c .g2 (-(p.2 * y))) keys ps := by
  induction hsigners with
  | nil => exact ⟨[], rfl, .nil⟩
  | cons hs _ ih =>
    obtain ⟨key, hkey, hexponent⟩ := exists_negatedKey hG hs hbase
    obtain ⟨keys, hkeys, hexponents⟩ := ih
    refine ⟨key :: keys, ?_, .cons hexponent hexponents⟩
    rw [negatedKeys, hkey, hkeys]
    rfl

theorem exists_aggregateFrom (hsigners : List.Forall₂ (HasExponents c) signers ps)
    {acc : Element B} (hacc : acc.HasExponent c .g1 x) :
    ∃ t, aggregateFrom c acc signers = .ok t ∧ t.HasExponent c .g1 (x + exponentSum ps) := by
  induction hsigners generalizing acc x with
  | nil => exact ⟨acc, rfl, by rwa [exponentSum, List.map_nil, List.sum_nil, add_zero]⟩
  | @cons s p signers ps hs _ ih =>
    have hfresh : (fresh c .g1).HasExponent c .g1 0 := .fresh hG .g1
    obtain ⟨v, hsignature, hv⟩ := hs.hash.powScalar hG hs.secret hfresh
    obtain ⟨v', hadd, hv'⟩ := hacc.combineWith hG .add (Exponent.combine_add _ _ _)
      (hfresh.withValue hv)
    obtain ⟨t, ht, hexponent⟩ := ih (hacc.withValue hv')
    refine ⟨t, ?_, ?_⟩
    · rw [aggregateFrom, signature, hsignature]
      show (combineWith .add _).result acc >>= _ = _
      rw [hadd]
      exact ht
    · rw [exponentSum, List.map_cons, List.sum_cons, ← add_assoc]
      exact hexponent

end Laws

/-- The sum that a product of pairings of hashes with negated keys adds to an exponent. -/
theorem sum_negated (w x y : Fr) (ps : List (Fr × Fr)) :
    ((ps.map fun p ↦ (p.1, -(p.2 * y))) ++ [(x, y)]).foldl (fun z q ↦ z + w * (q.1 * q.2)) 0
      = w * y * (x - exponentSum ps) := by
  have hstep : ∀ z : Fr, (ps.map fun p ↦ (p.1, -(p.2 * y))).foldl
      (fun z q ↦ z + w * (q.1 * q.2)) z = z - w * y * exponentSum ps := by
    induction ps with
    | nil =>
      intro z
      rw [exponentSum, List.map_nil, List.map_nil, List.sum_nil, mul_zero, sub_zero]
      rfl
    | cons p ps ih =>
      intro z
      rw [List.map_cons, List.foldl_cons, ih, exponentSum, exponentSum, List.map_cons,
        List.sum_cons]
      ring
  rw [List.foldl_append, hstep, List.foldl_cons, List.foldl_nil]
  ring

end Signer

/-! ## Products in exponents -/

namespace Context

variable {c : Context B}

/-- The loop of pairings of points of the two source groups adds up products of exponents. -/
theorem multiplyPairings_hasExponent (hG : B.GroupLaws M) {w : Fr}
    (hpair : ∀ {a b : Element B} {x y : Fr}, a.HasExponent c .g1 x → b.HasExponent c .g2 y →
      c.pair a b = .ok ⟨c, .gt (B.target.operations.element (w * (x * y)))⟩)
    {as bs : List (Element B)} {ps : List (Fr × Fr)}
    (has : List.Forall₂ (fun a p ↦ a.HasExponent c .g1 p.1) as ps)
    (hbs : List.Forall₂ (fun b p ↦ b.HasExponent c .g2 p.2) bs ps) (z : Fr) :
    (c.multiplyPairings as bs).result ⟨c, .gt (B.target.operations.element z)⟩
      = .ok ⟨c, .gt (B.target.operations.element
          (ps.foldl (fun z p ↦ z + w * (p.1 * p.2)) z))⟩ := by
  induction has generalizing bs z with
  | nil =>
    cases hbs
    rfl
  | cons ha _ ih =>
    cases hbs with
    | cons hb hbs =>
      rw [multiplyPairings, Update.result_lift, hpair ha hb]
      refine (Update.result_seq _ _).trans ?_
      rw [combineWith_mul_result, hG.target.combine_element]
      exact ih hbs _

end Context

namespace Signer

variable {c : Context B} {base sum : Element B} {signers : List (Signer B)}

theorem exists_exponents (hG : B.GroupLaws M)
    (hsigners : ∀ s ∈ signers, c.Contains M .g1 s.hash ∧ c.ScalarOperand s.secret) :
    ∃ ps, List.Forall₂ (HasExponents c) signers ps := by
  induction signers with
  | nil => exact ⟨[], .nil⟩
  | cons s signers ih =>
    obtain ⟨⟨hhash, hsecret⟩, hrest⟩ := List.forall_mem_cons.mp hsigners
    obtain ⟨x, hx⟩ := hhash.exists_exponent hG
    obtain ⟨k, hk⟩ := hsecret.exists_exponent
    obtain ⟨ps, hps⟩ := ih hrest
    exact ⟨(x, k) :: ps, .cons ⟨hx, hk⟩ hps⟩

theorem check_eq (hP : B.MultipliesPairings) {keys : List (Element B)}
    (hkeys : negatedKeys c base signers = .ok keys) (hlength : signers.length = keys.length) :
    check c base signers sum = (c.multiplyPairings (signers.map hash ++ [sum])
      (keys ++ [base])).result (fresh c .gt) := by
  rw [check, hkeys]
  show c.pairingProduct _ _ = _
  rw [pairingProduct_eq hP (by simp [hlength]) (by simp), ← multiplyPairings_result]
  rfl

/-- The check of a point has the exponent `w · γ · (σ - ∑ kᵢ hᵢ)`. -/
theorem check_hasExponent (hG : B.GroupLaws M) (hP : B.MultipliesPairings) {w : Fr}
    (hpair : ∀ {a b : Element B} {x y : Fr}, a.HasExponent c .g1 x → b.HasExponent c .g2 y →
      c.pair a b = .ok ⟨c, .gt (B.target.operations.element (w * (x * y)))⟩)
    {ps : List (Fr × Fr)} (hps : List.Forall₂ (HasExponents c) signers ps) {x y : Fr}
    (hsum : sum.HasExponent c .g1 x) (hbase : base.HasExponent c .g2 y) :
    check c base signers sum
      = .ok ⟨c, .gt (B.target.operations.element (w * y * (x - exponentSum ps)))⟩ := by
  obtain ⟨keys, hkeys, hexponents⟩ := exists_negatedKeys hG hps hbase
  -- The operands of the check, by the exponents of each pair of them.
  let operands : List (Fr × Fr) := ps.map fun p ↦ (p.1, -(p.2 * y))
  have hhashes : List.Forall₂ (fun a p ↦ a.HasExponent c .g1 p.1) (signers.map hash) operands :=
    List.forall₂_map_left_iff.mpr (List.forall₂_map_right_iff.mpr (hps.imp fun _ _ h ↦ h.hash))
  have hnegated : List.Forall₂ (fun b p ↦ b.HasExponent c .g2 p.2) keys operands :=
    List.forall₂_map_right_iff.mpr hexponents
  rw [check_eq hP hkeys (hps.length_eq.trans hexponents.length_eq.symm), ← sum_negated]
  exact multiplyPairings_hasExponent hG hpair (List.rel_append hhashes (.cons hsum .nil))
    (List.rel_append hnegated (.cons hbase .nil)) 0

/-- The check is trivial exactly for the sum of the signatures. -/
theorem check_isOne_iff (hB : B.Bilinear M) (hP : B.MultipliesPairings)
    (hsigners : ∀ s ∈ signers, c.Contains M .g1 s.hash ∧ c.ScalarOperand s.secret)
    (hbase : c.Contains M .g2 base) (hne : base.isZero = false) (hsum : c.Contains M .g1 sum) :
    ∃ t e, aggregate c signers = .ok t ∧ check c base signers sum = .ok e ∧
      (e.isOne = true ↔ sum.equal t = true) := by
  have hG := hB.toGroupLaws
  obtain ⟨w, hw, hpair⟩ := hB.exists_pair_factor c
  obtain ⟨ps, hps⟩ := exists_exponents hG hsigners
  obtain ⟨y, hy⟩ := hbase.exists_exponent hG
  obtain ⟨x, hx⟩ := hsum.exists_exponent hG
  obtain ⟨t, ht, htotal⟩ := exists_aggregateFrom hG hps (.fresh hG .g1)
  have hy0 : y ≠ 0 := by rwa [ne_eq, ← hy.isZero_iff hG, Bool.not_eq_true]
  refine ⟨t, _, ht, check_hasExponent hG hP hpair hps hx hy, ?_⟩
  rw [(hasExponent_target c _).isOne_iff hG, hx.equal_iff hG htotal, Exponent.one, zero_add,
    mul_eq_zero_iff_left (mul_ne_zero hw hy0), sub_eq_zero]

/-- For one signer the check is the comparison of two pairings. -/
theorem check_single (hB : B.Bilinear M) (hP : B.MultipliesPairings) {s : Signer B}
    (hs : c.Contains M .g1 s.hash ∧ c.ScalarOperand s.secret) (hbase : c.Contains M .g2 base)
    (hsum : c.Contains M .g1 sum) :
    ∃ e key l r, check c base [s] sum = .ok e ∧ s.publicKey c base = .ok key ∧
      c.pair sum base = .ok l ∧ c.pair s.hash key = .ok r ∧ e.isOne = l.equal r := by
  have hG := hB.toGroupLaws
  obtain ⟨w, hw, hpair⟩ := hB.exists_pair_factor c
  obtain ⟨h, hh⟩ := hs.1.exists_exponent hG
  obtain ⟨k, hk⟩ := hs.2.exists_exponent
  obtain ⟨y, hy⟩ := hbase.exists_exponent hG
  obtain ⟨x, hx⟩ := hsum.exists_exponent hG
  have hs' : s.HasExponents c (h, k) := ⟨hh, hk⟩
  obtain ⟨key, hkey, hke⟩ := exists_publicKey hG hs' hy
  refine ⟨_, key, _, _, check_hasExponent hG hP hpair (.cons hs' .nil) hx hy, hkey, hpair hx hy,
    hpair hh hke, ?_⟩
  rw [Bool.eq_iff_iff, (hasExponent_target c _).isOne_iff hG,
    (hasExponent_target c _).equal_iff hG (hasExponent_target c _), ← sub_eq_zero (a := w * _)]
  refine Eq.congr ?_ rfl
  rw [exponentSum, List.map_singleton, List.sum_singleton]
  ring

/-- Over every backend with a bilinear pairing, for any number of signers and every point of the
first source group: the check of the point succeeds, and its result is trivial exactly if the point
is the sum of the signatures. For one signer that is the comparison of the pairing of the point with
that of the hash. -/
theorem check_exact :
    ((exponentModel.Bilinear exponentMembership ∧ exponentModel.MultipliesPairings ∧
      ∀ v : Value exponentModel, exponentMembership.Holds v) ∧
      torusBackend.MultipliesPairings ∧ coefficientBackend.MultipliesPairings) ∧
    ∀ (B : Backend) (M : B.Membership), B.Bilinear M → B.MultipliesPairings →
      ∀ (c : Context B) (signers : List (Signer B)) (base sum : Element B),
        (∀ s ∈ signers, c.Contains M .g1 s.hash ∧ c.ScalarOperand s.secret) →
        c.Contains M .g2 base → base.isZero = false → c.Contains M .g1 sum →
          (∃ t e, aggregate c signers = .ok t ∧ check c base signers sum = .ok e ∧
            (e.isOne = true ↔ sum.equal t = true)) ∧
          ∀ s, signers = [s] → ∃ e key l r, check c base signers sum = .ok e ∧
            s.publicKey c base = .ok key ∧ c.pair sum base = .ok l ∧ c.pair s.hash key = .ok r ∧
            e.isOne = l.equal r := by
  refine ⟨⟨⟨exponentModel_bilinear, exponentModel_multipliesPairings, exponentMembership_holds⟩,
    torusBackend_multipliesPairings, coefficientBackend_multipliesPairings⟩, ?_⟩
  intro B M hB hP c signers base sum hsigners hbase hne hsum
  refine ⟨check_isOne_iff hB hP hsigners hbase hne hsum, ?_⟩
  rintro s rfl
  exact check_single hB hP (hsigners s List.mem_cons_self) hbase hsum

open ExponentModel (elementOf)

/-- Two hashes with their secrets. -/
def twoSigners : List (Signer exponentModel) :=
  [⟨elementOf .g1 2, elementOf .zr 3⟩, ⟨elementOf .g1 5, elementOf .zr 7⟩]

theorem check_exact_twoSigners :
    let c : Context exponentModel := .standard _
    let base := elementOf .g2 11
    (∃ t e, aggregate c twoSigners = .ok t ∧ check c base twoSigners (elementOf .g1 42) = .ok e ∧
      (e.isOne = true ↔ (elementOf .g1 42).equal t = true)) ∧
      aggregate c twoSigners = .ok (elementOf .g1 41) ∧
      (∃ e key l r, check c base [⟨elementOf .g1 2, elementOf .zr 3⟩] (elementOf .g1 6) = .ok e ∧
        publicKey c base ⟨elementOf .g1 2, elementOf .zr 3⟩ = .ok key ∧
        c.pair (elementOf .g1 6) base = .ok l ∧ c.pair (elementOf .g1 2) key = .ok r ∧
        e.isOne = l.equal r) := by
  intro c base
  have hcontains : ∀ g x, c.Contains exponentMembership g (elementOf g x) := fun g x ↦
    ⟨rfl, by cases g <;> rfl, exponentMembership_holds _⟩
  have hmodel := check_exact.2 exponentModel exponentMembership exponentModel_bilinear
    exponentModel_multipliesPairings c
  have hsigners : ∀ s ∈ twoSigners, c.Contains exponentMembership .g1 s.hash ∧
      c.ScalarOperand s.secret := by
    simp only [twoSigners, List.forall_mem_cons, List.not_mem_nil, false_imp_iff, implies_true,
      and_true]
    exact ⟨⟨hcontains .g1 2, rfl, rfl⟩, hcontains .g1 5, rfl, rfl⟩
  exact ⟨(hmodel twoSigners base _ hsigners (hcontains .g2 11) rfl (hcontains .g1 42)).1, rfl,
    (hmodel [⟨elementOf .g1 2, elementOf .zr 3⟩] base (elementOf .g1 6)
      (fun s hs ↦ hsigners s (List.mem_cons.mpr (.inl (List.mem_singleton.mp hs))))
      (hcontains .g2 11) rfl (hcontains .g1 6)).2 _ rfl⟩

end Signer

end BilinearGroups
