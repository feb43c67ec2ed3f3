import Mathlib.Order.Hom.Basic
import BilinearGroups.Proofs.Agree
import BilinearGroups.Proofs.Element.Comparison
import BilinearGroups.Proofs.Element.CompressedForm
import BilinearGroups.Proofs.Element.Result
import BilinearGroups.Pairing
import BilinearGroups.Session.Report

/-!
# Matching the elements of two backends

Whether two backends can be told apart is a matter of their values. If values can be matched so that
every operation takes matching values to matching values, or fails for the same reason, then
elements with matching values stay matching whatever is done to them, and comparing them has the
same answers. A `Matching` is such a relation, together with the proofs. What does not belong to the
groups themselves may be left out, as far as the backends differ in it: encodings, draws, hashes and
the groups that are accepted on either side of a pairing. What is left in is the `Scope`.

Contexts match if they are built from the same parameters. The numbers of their creations need not
be the same: all that counts is which of them are equal, so they may be renumbered in between.
-/

namespace BilinearGroups

/-- What two backends do alike, apart from the operations of the groups. -/
structure Scope where
  /-- The bytes are read alike for a group. -/
  Reads : Group → Bytes → Prop
  /-- Compressed encodings are read alike. -/
  Decompresses : Prop
  /-- Values are drawn alike. -/
  Draws : Prop
  /-- Messages are hashed alike. -/
  Hashes : Prop
  /-- Values of the group are taken alike on the left of a pairing. -/
  Left : Group → Prop
  /-- Values of the group are taken alike on the right of a pairing. -/
  Right : Group → Prop

/-- How the values of two backends match. -/
structure Matching (B B' : Backend) extends Scope where
  /-- The values match. -/
  Values : Value B → Value B' → Prop
  group_eq {v : Value B} {v' : Value B'} : Values v v' → v.group = v'.group
  eq_iff {v w : Value B} {v' w' : Value B'} : Values v v' → Values w w' → (v = w ↔ v' = w')
  orderBytes : B.scalars.orderBytes = B'.scalars.orderBytes
  scalarBytes {s : B.Scalar} {s' : B'.Scalar} :
    Values (.zr s) (.zr s') → B.scalars.toBytes s = B'.scalars.toBytes s'
  identity (g : Group) : Values (.identity g) (.identity g)
  one (g : Group) : Values (.one g) (.one g)
  integer (n : Int64) : Values (.zr (B.scalars.ofInt64 n)) (.zr (B'.scalars.ofInt64 n))
  generator (g : Group) : Agree Values (Value.generator g) (Value.generator g)
  random : Draws → ∀ g supply,
    Option.Rel (fun drawn drawn' ↦ Values drawn.1 drawn'.1) (Value.random g supply)
      (Value.random g supply)
  hash : Hashes → ∀ (message tag : Bytes) (g : Group),
    Agree Values (Value.hash message tag g) (Value.hash message tag g)
  combine (op : BinaryOp) {v w : Value B} {v' w' : Value B'} : v.group = w.group →
    Values v v' → Values w w' → Agree Values (v.combine op w) (v'.combine op w')
  inverse {v : Value B} {v' : Value B'} : Values v v' → Agree Values v.inverse v'.inverse
  negative {v : Value B} {v' : Value B'} : Values v v' → Values v.negative v'.negative
  multiple {k : B.Scalar} {k' : B'.Scalar} {v : Value B} {v' : Value B'} :
    Values (.zr k) (.zr k') → Values v v' → Values (v.multiple k) (v'.multiple k')
  power {k : B.Scalar} {k' : B'.Scalar} {v : Value B} {v' : Value B'} :
    Values (.zr k) (.zr k') → Values v v' → Values (v.power k) (v'.power k')
  read {g : Group} {bs : Bytes} : Reads g bs → ∀ (c : Context B) (c' : Context B'),
    Agree Values (Element.readValue c bs g) (Element.readValue c' bs g)
  readCompressed : Decompresses → ∀ {c : Context B} {g : Group} {bs : Bytes},
    c.compressedByteLength g = .ok bs.length →
    Agree Values (Value.readCompressed bs g) (Value.readCompressed bs g)
  compressedByteLength : Decompresses → ∀ (g : Group) (c : Context B) (c' : Context B'),
    c.compressedByteLength g = c'.compressedByteLength g
  leftPoint {v : Value B} {v' : Value B'} : Left v.group → Values v v' →
    Agree (fun p p' ↦ Values (.g1 p) (.g1 p')) (Context.leftPoint v) (Context.leftPoint v')
  rightPoint {v : Value B} {v' : Value B'} : Right v.group → Values v v' →
    Agree (fun q q' ↦ Values (.g2 q) (.g2 q')) (Context.rightPoint v) (Context.rightPoint v')
  pairing {p : B.G1} {p' : B'.G1} {q : B.G2} {q' : B'.G2} : Values (.g1 p) (.g1 p') →
    Values (.g2 q) (.g2 q') → Values (.gt (B.pairing p q)) (.gt (B'.pairing p' q'))
  pairingProduct {points : List (B.G1 × B.G2)} {points' : List (B'.G1 × B'.G2)} :
    List.Forall₂ (fun pq pq' ↦ Values (.g1 pq.1) (.g1 pq'.1) ∧ Values (.g2 pq.2) (.g2 pq'.2))
      points points' →
    Agree (fun t t' ↦ Values (.gt t) (.gt t'))
      (B.pairingProduct (points.map Prod.fst) (points.map Prod.snd))
      (B'.pairingProduct (points'.map Prod.fst) (points'.map Prod.snd))

namespace Matching

variable {B B' : Backend} (X : Matching B B') (ρ : ℕ ↪o ℕ)

/-- The contexts were built from the same parameters, and the number of the second one is the new
number of the first. -/
structure Contexts (c : Context B) (c' : Context B') : Prop where
  creation : c'.creation = ρ c.creation
  parameters : c.parameters = c'.parameters
  order : c.order = c'.order
  tags : c.tags = c'.tags

/-- The elements have matching contexts and values. -/
structure Elements (e : Element B) (e' : Element B') : Prop where
  context : Contexts ρ e.context e'.context
  value : X.Values e.value e'.value

variable {X ρ}

theorem Contexts.sameAs {c d : Context B} {c' d' : Context B'} (hc : Contexts ρ c c')
    (hd : Contexts ρ d d') : c.sameAs d = c'.sameAs d' := by
  rw [Context.sameAs, Context.sameAs, hc.creation, hd.creation, Bool.eq_iff_iff, beq_iff_eq,
    beq_iff_eq, ρ.injective.eq_iff]

/-! ## Values -/

/-- Matching values are scalars together. -/
theorem exists_scalars {v : Value B} {v' : Value B'} (hv : X.Values v v') (hg : v.group = .zr) :
    ∃ k k', v = .zr k ∧ v' = .zr k' ∧ X.Values (.zr k) (.zr k') := by
  have hg' := (X.group_eq hv).symm.trans hg
  cases v with
  | g1 | g2 | gt => cases hg
  | zr k =>
    cases v' with
    | g1 | g2 | gt => cases hg'
    | zr k' => exact ⟨k, k', rfl, rfl, hv⟩

/-! ## Elements -/

theorem scalarOperand_of_ne {B : Backend} {e z : Element B} (hg : z.group ≠ .zr) :
    e.scalarOperand z = if !e.context.sameAs z.context then .error .wrongContext
      else .error (.wrongGroup .zr z.group) := by
  obtain ⟨c, v⟩ := z
  cases v with
  | g1 | g2 | gt => rfl
  | zr => exact absurd rfl hg

namespace Elements

variable {e a b z : Element B} {e' a' b' z' : Element B'}

theorem group_eq (he : X.Elements ρ e e') : e.group = e'.group := X.group_eq he.value

theorem withValue (he : X.Elements ρ e e') {v : Value B} {v' : Value B'} (hv : X.Values v v') :
    X.Elements ρ (e.withValue v) (e'.withValue v') := ⟨he.context, hv⟩

theorem fresh {c : Context B} {c' : Context B'} (hc : Contexts ρ c c') (g : Group) :
    X.Elements ρ (Element.fresh c g) (Element.fresh c' g) := ⟨hc, X.identity g⟩

theorem freshLike (he : X.Elements ρ e e') : X.Elements ρ e.freshLike e'.freshLike := by
  rw [Element.freshLike, Element.freshLike, he.group_eq]
  exact .fresh he.context _

theorem checkCompatible (he : X.Elements ρ e e') (ha : X.Elements ρ a a') :
    e.checkCompatible a = e'.checkCompatible a' := by
  rw [Element.checkCompatible, Element.checkCompatible, he.context.sameAs ha.context, he.group_eq,
    ha.group_eq]

theorem scalarOperand (he : X.Elements ρ e e') (hz : X.Elements ρ z z') :
    Agree (fun k k' ↦ X.Values (.zr k) (.zr k')) (e.scalarOperand z) (e'.scalarOperand z') := by
  have hcontext := he.context.sameAs hz.context
  by_cases hg : z.group = .zr
  · obtain ⟨k, k', hk, hk', hvalues⟩ := exists_scalars hz.value hg
    rw [Element.scalarOperand, Element.scalarOperand, hcontext, hk, hk']
    split_ifs
    · exact .error _
    · exact .ok hvalues
  · rw [scalarOperand_of_ne hg, scalarOperand_of_ne (hz.group_eq ▸ hg), hcontext, hz.group_eq]
    split_ifs <;> exact .error _

/-! ### Comparisons -/

theorem value_eq_iff (he : X.Elements ρ e e') (ha : X.Elements ρ a a') :
    e.value = a.value ↔ e'.value = a'.value := X.eq_iff he.value ha.value

theorem partialCompare (he : X.Elements ρ e e') (ha : X.Elements ρ a a') :
    e.partialCompare a = e'.partialCompare a' := by
  have hcontext := he.context.sameAs ha.context
  by_cases hg : e.group = .zr ∧ a.group = .zr
  · obtain ⟨s, s', hs, hs', hbytes⟩ := exists_scalars he.value hg.1
    obtain ⟨t, t', ht, ht', hbytes'⟩ := exists_scalars ha.value hg.2
    rw [Element.partialCompare, Element.partialCompare, hcontext, hs, hs', ht, ht']
    dsimp only
    rw [X.scalarBytes hbytes, X.scalarBytes hbytes']
  · rw [Classical.not_and_iff_not_or_not] at hg
    have hg' : e'.group ≠ .zr ∨ a'.group ≠ .zr := by rwa [← he.group_eq, ← ha.group_eq]
    rw [Element.partialCompare_of_ne hg, Element.partialCompare_of_ne hg', hcontext]
    simp only [value_eq_iff he ha]

theorem comparison (he : X.Elements ρ e e') (ha : X.Elements ρ a a') :
    e.comparison a = e'.comparison a' := by
  have hvalue : decide (e.value = a.value) = decide (e'.value = a'.value) :=
    decide_eq_decide.mpr (he.value_eq_iff ha)
  rw [Element.comparison, Element.comparison, Element.compareEqual, Element.compareEqual,
    Element.equal, Element.equal, Element.less, Element.less, Element.greaterOrEqual,
    Element.greaterOrEqual, he.checkCompatible ha, he.context.sameAs ha.context,
    he.partialCompare ha, hvalue]

end Elements

/-! ## Operations in place -/

/-- The operations take matching elements of some groups to matching elements, or fail for the same
reason. -/
def Updates (X : Matching B B') (ρ : ℕ ↪o ℕ) (applies : Group → Prop) (u : Element.Update B Unit)
    (u' : Element.Update B' Unit) : Prop :=
  ∀ e e', X.Elements ρ e e' → applies e.group → Agree (X.Elements ρ) (u.result e) (u'.result e')

namespace Updates

open Element

variable {a b z : Element B} {a' b' z' : Element B'} {P : Group → Prop}

theorem setZero : X.Updates ρ P Element.setZero Element.setZero := by
  intro e e' he _
  rw [setZero_result, setZero_result, he.group_eq]
  exact .ok (he.withValue (X.identity _))

theorem setOne : X.Updates ρ P Element.setOne Element.setOne := by
  intro e e' he _
  rw [setOne_result, setOne_result, he.group_eq]
  exact .ok (he.withValue (X.one _))

theorem setInteger (n : Int64) :
    X.Updates ρ P (Element.setInteger n) (Element.setInteger n) := by
  intro e e' he _
  rw [setInteger_result, setInteger_result, he.group_eq]
  split_ifs
  · exact .ok (he.withValue (X.integer n))
  · exact .error _

theorem set (ha : X.Elements ρ a a') : X.Updates ρ P (Element.set a) (Element.set a') := by
  intro e e' he _
  rw [set_result, set_result, he.checkCompatible ha]
  exact .check fun _ ↦ .ok (he.withValue ha.value)

theorem setGenerator : X.Updates ρ P Element.setGenerator Element.setGenerator := by
  intro e e' he _
  rw [setGenerator_result, setGenerator_result, he.group_eq]
  exact (X.generator _).bind fun _ _ hv ↦ .ok (he.withValue hv)

theorem setRandom (supply : Words) : X.Updates ρ (fun _ ↦ X.Draws)
    (discard (Element.setRandom supply)) (discard (Element.setRandom supply)) := by
  intro e e' he hdraws
  have hdrawn := X.random hdraws e.group supply
  rw [setRandom_result, setRandom_result, ← he.group_eq]
  obtain ⟨hs, hs'⟩ | ⟨drawn, drawn', hs, hs', hvalues⟩ := eq_none_or_eq_some hdrawn
  · rw [hs, hs']
    exact .error _
  · rw [hs, hs']
    exact .ok (he.withValue hvalues)

theorem setFromHash (message : Bytes) : X.Updates ρ (fun _ ↦ X.Hashes)
    (Element.setFromHash message) (Element.setFromHash message) := by
  intro e e' he hhashes
  have htag : e.context.tag e.group = e'.context.tag e'.group := by
    rw [Context.tag, Context.tag, he.context.tags, he.group_eq]
  rw [setFromHash_result, setFromHash_result, htag, he.group_eq]
  exact ((X.hash hhashes _ _ _).mapError _).bind fun _ _ hv ↦ .ok (he.withValue hv)

theorem setFromBytes (bs : Bytes) :
    X.Updates ρ (X.Reads · bs) (Element.setFromBytes bs) (Element.setFromBytes bs) := by
  intro e e' he hreads
  rw [setFromBytes_result, setFromBytes_result, ← he.group_eq]
  exact (X.read hreads _ _).bind fun _ _ hv ↦ .ok (he.withValue hv)

theorem setFromCompressedBytes (bs : Bytes) : X.Updates ρ (fun _ ↦ X.Decompresses)
    (Element.setFromCompressedBytes bs) (Element.setFromCompressedBytes bs) := by
  intro e e' he hdecompresses
  have hlength : e.compressedByteLength = e'.compressedByteLength := by
    rw [Element.compressedByteLength, Element.compressedByteLength, ← he.group_eq]
    exact X.compressedByteLength hdecompresses _ _ _
  rw [setFromCompressedBytes_result, setFromCompressedBytes_result, ← hlength, ← he.group_eq]
  cases hn : e.compressedByteLength with
  | error reason => exact .error reason
  | ok n =>
    refine .check fun hcheck ↦ ?_
    obtain rfl := checkLength_eq_ok hcheck
    exact (X.readCompressed hdecompresses hn).bind fun _ _ hv ↦ .ok (he.withValue hv)

theorem combine (op : BinaryOp) (ha : X.Elements ρ a a') (hb : X.Elements ρ b b') :
    X.Updates ρ P (Element.combine op a b) (Element.combine op a' b') := by
  intro e e' he _
  have hchecka := he.checkCompatible ha
  have hcheckb := he.checkCompatible hb
  rw [combine_result, combine_result, ← hchecka, ← hcheckb]
  refine .check fun hca ↦ .check fun hcb ↦ ?_
  have hgroup : a.group = b.group :=
    (group_eq_of_checkCompatible hca).symm.trans (group_eq_of_checkCompatible hcb)
  exact (X.combine op hgroup ha.value hb.value).bind fun _ _ hv ↦ .ok (he.withValue hv)

theorem mulInteger (ha : X.Elements ρ a a') (n : Int64) :
    X.Updates ρ P (Element.mulInteger a n) (Element.mulInteger a' n) := by
  intro e e' he _
  rw [mulInteger_result, mulInteger_result, he.checkCompatible ha]
  exact .check fun _ ↦ .ok (he.withValue (X.multiple (X.integer n) ha.value))

theorem mulScalar (ha : X.Elements ρ a a') (hz : X.Elements ρ z z') :
    X.Updates ρ P (Element.mulScalar a z) (Element.mulScalar a' z') := by
  intro e e' he _
  rw [mulScalar_result, mulScalar_result, he.checkCompatible ha]
  exact .check fun _ ↦ (he.scalarOperand hz).bind fun _ _ hk ↦
    .ok (he.withValue (X.multiple hk ha.value))

theorem powScalar (ha : X.Elements ρ a a') (hz : X.Elements ρ z z') :
    X.Updates ρ P (Element.powScalar a z) (Element.powScalar a' z') := by
  intro e e' he _
  rw [powScalar_result, powScalar_result, he.checkCompatible ha]
  exact .check fun _ ↦ (he.scalarOperand hz).bind fun _ _ hk ↦
    .ok (he.withValue (X.power hk ha.value))

theorem invert (ha : X.Elements ρ a a') :
    X.Updates ρ P (Element.invert a) (Element.invert a') := by
  intro e e' he _
  rw [invert_result, invert_result, he.checkCompatible ha]
  exact .check fun _ ↦ (X.inverse ha.value).bind fun _ _ hv ↦ .ok (he.withValue hv)

theorem neg (ha : X.Elements ρ a a') : X.Updates ρ P (Element.neg a) (Element.neg a') := by
  intro e e' he _
  rw [neg_result, neg_result, he.checkCompatible ha]
  exact .check fun _ ↦ .ok (he.withValue (X.negative ha.value))

theorem combineWith (op : BinaryOp) (hb : X.Elements ρ b b') :
    X.Updates ρ P (Element.combineWith op b) (Element.combineWith op b') := by
  intro e e' he _
  have hcheck := he.checkCompatible hb
  rw [combineWith_result, combineWith_result, ← hcheck]
  refine .check fun hcb ↦ ?_
  have hgroup : e.group = b.group := group_eq_of_checkCompatible hcb
  exact (X.combine op hgroup he.value hb.value).bind fun _ _ hv ↦ .ok (he.withValue hv)

theorem powScalarWith (hz : X.Elements ρ z z') :
    X.Updates ρ P (Element.powScalarWith z) (Element.powScalarWith z') := by
  intro e e' he _
  rw [powScalarWith_result, powScalarWith_result]
  exact (he.scalarOperand hz).bind fun _ _ hk ↦ .ok (he.withValue (X.power hk he.value))

theorem inverted : X.Updates ρ P Element.inverted Element.inverted := by
  intro e e' he _
  rw [inverted_result, inverted_result]
  exact (X.inverse he.value).bind fun _ _ hv ↦ .ok (he.withValue hv)

end Updates

/-! ## New elements -/

namespace Contexts

variable {c : Context B} {c' : Context B'} {a b : Element B} {a' b' : Element B'}
  {as bs : List (Element B)} {as' bs' : List (Element B')}

theorem ofBytes (hc : Contexts ρ c c') {g : Group} {bs : Bytes} (hreads : X.Reads g bs) :
    Agree (X.Elements ρ) (Element.ofBytes c g bs) (Element.ofBytes c' g bs) := by
  rw [Element.ofBytes_eq, Element.ofBytes_eq]
  exact (X.read hreads c c').map fun _ _ hv ↦ ⟨hc, hv⟩

theorem ofCompressedBytes (hc : Contexts ρ c c') (hdecompresses : X.Decompresses) (g : Group)
    (bs : Bytes) :
    Agree (X.Elements ρ) (Element.ofCompressedBytes c g bs) (Element.ofCompressedBytes c' g bs) :=
  Updates.setFromCompressedBytes bs _ _ (.fresh hc g) hdecompresses

/-- The record that a text describes is read alike if the bytes are read alike for the group,
provided that the group is accepted. -/
theorem readJson (hc : Contexts ρ c c') {accepted? : Option Group} {text : List Char}
    (hreads : ∀ g bs rest, Element.record.read text = .ok ((g, bs), rest) →
      accepted?.getD g = g → X.Reads g bs) :
    Agree (fun x x' ↦ X.Elements ρ x.1 x'.1) (Element.readJson c accepted? text)
      (Element.readJson c' accepted? text) := by
  rw [Element.readJson_eq, Element.readJson_eq]
  cases hrecord : Element.record.read text with
  | error reason => exact .error reason
  | ok x =>
    obtain ⟨⟨g, bs⟩, rest⟩ := x
    have hread := hreads g bs rest hrecord
    have hofRecord : Agree (X.Elements ρ) (Element.ofRecord c accepted? g bs)
        (Element.ofRecord c' accepted? g bs) := by
      cases accepted? with
      | none => exact hc.ofBytes (hread rfl)
      | some accepted =>
        rw [Element.ofRecord, Element.ofRecord]
        split_ifs with hg
        · exact .error _
        · exact hc.ofBytes (hread (of_not_not hg).symm)
    exact (hofRecord.mapError _).map fun _ _ he ↦ he

theorem sourcePoints (hc : Contexts ρ c c') (ha : X.Elements ρ a a') (hb : X.Elements ρ b b')
    (hleft : X.Left a.group) (hright : X.Right b.group) :
    Agree (fun pq pq' ↦ X.Values (.g1 pq.1) (.g1 pq'.1) ∧ X.Values (.g2 pq.2) (.g2 pq'.2))
      (c.sourcePoints a b) (c'.sourcePoints a' b') := by
  rw [Context.sourcePoints, Context.sourcePoints, hc.sameAs ha.context, hc.sameAs hb.context]
  split_ifs
  · exact .error _
  · exact (X.leftPoint hleft ha.value).bind fun _ _ hp ↦
      (X.rightPoint hright hb.value).bind fun _ _ hq ↦ .ok ⟨hp, hq⟩

theorem pair (hc : Contexts ρ c c') (ha : X.Elements ρ a a') (hb : X.Elements ρ b b')
    (hleft : X.Left a.group) (hright : X.Right b.group) :
    Agree (X.Elements ρ) (c.pair a b) (c'.pair a' b') :=
  (hc.sourcePoints ha hb hleft hright).bind fun _ _ ⟨hp, hq⟩ ↦ .ok ⟨hc, X.pairing hp hq⟩

theorem allSourcePoints (hc : Contexts ρ c c') (has : List.Forall₂ (X.Elements ρ) as as')
    (hbs : List.Forall₂ (X.Elements ρ) bs bs') (hleft : ∀ a ∈ as, X.Left a.group)
    (hright : ∀ b ∈ bs, X.Right b.group) :
    Agree (List.Forall₂ fun pq pq' ↦
        X.Values (.g1 pq.1) (.g1 pq'.1) ∧ X.Values (.g2 pq.2) (.g2 pq'.2))
      (c.allSourcePoints as bs) (c'.allSourcePoints as' bs') := by
  induction has generalizing bs bs' with
  | nil => cases hbs <;> exact .ok .nil
  | cons ha _ ih =>
    cases hbs with
    | nil => exact .ok .nil
    | cons hb hbs =>
      rw [List.forall_mem_cons] at hleft hright
      refine (hc.sourcePoints ha hb hleft.1 hright.1).bind fun _ _ hpoint ↦ ?_
      exact (ih hbs hleft.2 hright.2).bind fun _ _ hpoints ↦ .ok (.cons hpoint hpoints)

theorem pairingProduct (hc : Contexts ρ c c') (has : List.Forall₂ (X.Elements ρ) as as')
    (hbs : List.Forall₂ (X.Elements ρ) bs bs') (hleft : ∀ a ∈ as, X.Left a.group)
    (hright : ∀ b ∈ bs, X.Right b.group) :
    Agree (X.Elements ρ) (c.pairingProduct as bs) (c'.pairingProduct as' bs') := by
  have hempty : as.isEmpty = as'.isEmpty := by cases has <;> rfl
  rw [Context.pairingProduct, Context.pairingProduct, has.length_eq, hbs.length_eq, hempty]
  split_ifs
  · exact .error _
  · exact .error _
  · refine (hc.allSourcePoints has hbs hleft hright).bind fun points points' hpoints ↦ ?_
    obtain ⟨reason, hs, hs'⟩ | ⟨t, t', hs, hs', ht⟩ :=
      (X.pairingProduct hpoints).eq_error_or_eq_ok
    · rw [hs, hs']
      exact .error _
    · rw [hs, hs']
      exact .ok ⟨hc, ht⟩

end Contexts

end Matching

end BilinearGroups
