import BilinearGroups.Element.Codec
import BilinearGroups.Pairing
import BilinearGroups.Proofs.Element.Membership

/-!
# Where values come from

Whatever an operation does, the value it gives comes about in one of few ways: it is a constant, it
is drawn, hashed or decoded, or it is computed from values that were there before. `Value.Derived`
lists these ways, together with the group of the result. What holds in each of them holds for all
operations at once.

Two such properties follow. The group of the result is the one of the list, so that an operation
keeps the group of its receiver. And the result is an element of its group if the values that were
there before are, over a backend whose own operations stay inside the groups.
-/

namespace BilinearGroups

variable {B : Backend} {held : Value B → Prop} {g : Group} {v : Value B}

namespace Value

/-- The value of a group comes about from constants, from outside, or from values that are held. -/
inductive Derived (held : Value B → Prop) : Group → Value B → Prop
  /-- The neutral element of the sum. -/
  | identity (g : Group) : Derived held g (identity g)
  /-- The neutral element of the product. -/
  | one (g : Group) : Derived held g (one g)
  /-- The class of an integer. -/
  | integer (n : Int64) : Derived held .zr (zr (B.scalars.ofInt64 n))
  /-- The standard generator. -/
  | generator {g : Group} {v : Value B} : generator g = .ok v → Derived held g v
  /-- A value drawn from the group. -/
  | random {g : Group} {v : Value B} {ws rest : Words} :
    random g ws = some (v, rest) → Derived held g v
  /-- A hash into the group. -/
  | hash {g : Group} {v : Value B} {message tag : Bytes} :
    hash message tag g = .ok v → Derived held g v
  /-- A canonical encoding was read. -/
  | decoded {g : Group} {v : Value B} {bs : Bytes} : ofBytes bs g = .ok v → Derived held g v
  /-- A compressed encoding was read in the first source group. -/
  | decompressedG1 {p : B.G1} {bs : Bytes} : B.g1.ofCompressed bs = .ok p → Derived held .g1 (g1 p)
  /-- A compressed encoding was read in the second source group. -/
  | decompressedG2 {q : B.G2} {bs : Bytes} : B.g2.ofCompressed bs = .ok q → Derived held .g2 (g2 q)
  /-- The value was there before. -/
  | copied {v : Value B} : held v → Derived held v.group v
  /-- The result of an operation on two values. -/
  | combined {op : BinaryOp} {a b v : Value B} :
    held a → held b → a.combine op b = .ok v → Derived held a.group v
  /-- The multiple of a value. -/
  | multiple {a : Value B} (k : B.Scalar) : held a → Derived held a.group (a.multiple k)
  /-- The power of a value. -/
  | power {a : Value B} (k : B.Scalar) : held a → Derived held a.group (a.power k)
  /-- The inverse of a value. -/
  | inverted {a v : Value B} : held a → a.inverse = .ok v → Derived held a.group v
  /-- The negative of a value. -/
  | negated {a : Value B} : held a → Derived held a.group a.negative
  /-- The pairing of two values. -/
  | paired {a b : Value B} {p : B.G1} {q : B.G2} :
    held a → held b → Context.leftPoint a = .ok p → Context.rightPoint b = .ok q →
      Derived held .gt (gt (B.pairing p q))
  /-- The product of pairings of values. -/
  | product {points : List (B.G1 × B.G2)} {t : B.Target} :
    (∀ pq ∈ points, ∃ a b, held a ∧ held b ∧
      Context.leftPoint a = .ok pq.1 ∧ Context.rightPoint b = .ok pq.2) →
      B.pairingProduct (points.map Prod.fst) (points.map Prod.snd) = .ok t → Derived held .gt (gt t)

/-! ## The group of the result -/

theorem group_identity (g : Group) : (identity g : Value B).group = g := by cases g <;> rfl

theorem group_one (g : Group) : (one g : Value B).group = g := by cases g <;> rfl

theorem group_of_generator (h : generator g = .ok v) : v.group = g := by
  cases g <;> cases h <;> rfl

theorem group_of_random {ws rest : Words} (h : random g ws = some (v, rest)) : v.group = g := by
  cases g <;>
    · obtain ⟨_, -, rfl⟩ := Draw.map_eq_some_iff.mp h
      rfl

theorem group_of_hash {message tag : Bytes} (h : hash message tag g = .ok v) : v.group = g := by
  cases g with
  | g1 | g2 =>
    obtain ⟨_, -, rfl⟩ := exists_of_map_eq_ok h
    rfl
  | gt | zr =>
    cases h
    rfl

theorem group_of_combine {op : BinaryOp} {a b : Value B} (h : a.combine op b = .ok v) :
    v.group = a.group := by
  unfold combine at h
  split at h
  · cases h
  -- Past the refusal of a divisor, the two values are matched by their groups.
  split at h
  · cases h
    rfl
  · cases h
    rfl
  · cases h
    rfl
  · obtain ⟨_, -, rfl⟩ := exists_of_map_eq_ok h
    rfl
  · cases h

theorem group_of_inverse {a : Value B} (h : a.inverse = .ok v) : v.group = a.group := by
  unfold inverse at h
  split_ifs at h
  cases a with
  | zr s =>
    obtain ⟨_, -, rfl⟩ := exists_of_map_eq_ok h
    rfl
  | g1 | g2 | gt =>
    cases h
    rfl

theorem group_negative (a : Value B) : a.negative.group = a.group := by cases a <;> rfl

theorem group_multiple (k : B.Scalar) (a : Value B) : (a.multiple k).group = a.group := by
  cases a <;> rfl

theorem group_power (k : B.Scalar) (a : Value B) : (a.power k).group = a.group := by
  cases a <;> rfl

theorem Derived.group_eq (h : Derived held g v) : v.group = g := by
  cases h with
  | identity => exact group_identity g
  | one => exact group_one g
  | generator h => exact group_of_generator h
  | random h => exact group_of_random h
  | hash h => exact group_of_hash h
  | decoded h => exact group_of_ofBytes h
  | combined _ _ h => exact group_of_combine h
  | multiple k => exact group_multiple k _
  | power k => exact group_power k _
  | inverted _ h => exact group_of_inverse h
  | negated => exact group_negative _
  | integer | decompressedG1 | decompressedG2 | copied | paired | product => rfl

end Value

/-! ## New elements -/

open Value (Derived)

variable {e : Element B} {c : Context B} {bs : Bytes}

theorem Element.ofBytes_derived (h : ofBytes c g bs = .ok e) : Derived held e.group e.value := by
  obtain ⟨-, -, hread⟩ := ofBytes_eq_ok_iff.mp h
  rw [group, Value.group_of_ofBytes hread]
  exact .decoded hread

theorem Element.ofCompressedBytes_derived (h : ofCompressedBytes c g bs = .ok e) :
    Derived held e.group e.value := by
  obtain ⟨v, ⟨-, hv⟩, rfl⟩ := (setFromCompressedBytes_replaces bs).of_result h
  rcases hv with ⟨-, p, hp, rfl⟩ | ⟨-, q, hq, rfl⟩
  · exact .decompressedG1 hp
  · exact .decompressedG2 hq

/-- An element that is read as JSON is decoded from the bytes of its record. -/
theorem Element.ofBytes_of_readJson {accepted? : Option Group} {text rest : List Char}
    (h : readJson c accepted? text = .ok (e, rest)) : ∃ g bs, ofBytes c g bs = .ok e := by
  obtain ⟨⟨⟨g, bs⟩, _⟩, -, h⟩ := exists_of_bind_eq_ok h
  dsimp only at h
  split at h
  · next hrecord =>
    cases h
    unfold ofRecord at hrecord
    split at hrecord
    · split_ifs at hrecord
      exact ⟨g, bs, hrecord⟩
    · exact ⟨g, bs, hrecord⟩
  · cases h

theorem Element.readJson_derived {accepted? : Option Group} {text rest : List Char}
    (h : readJson c accepted? text = .ok (e, rest)) : Derived held e.group e.value := by
  obtain ⟨g, bs, hread⟩ := ofBytes_of_readJson h
  exact ofBytes_derived hread

namespace Context

variable {a b : Element B}

/-- The points of operands come from the two values. -/
theorem sourcePoints_eq_ok {pq : B.G1 × B.G2} (h : c.sourcePoints a b = .ok pq) :
    leftPoint a.value = .ok pq.1 ∧ rightPoint b.value = .ok pq.2 := by
  unfold sourcePoints at h
  split at h
  · cases h
  obtain ⟨p, hp, h⟩ := exists_of_bind_eq_ok h
  obtain ⟨q, hq, h⟩ := exists_of_bind_eq_ok h
  cases h
  exact ⟨hp, hq⟩

theorem pair_derived (h : c.pair a b = .ok e) (ha : held a.value) (hb : held b.value) :
    Derived held e.group e.value := by
  obtain ⟨pq, hpoints, h⟩ := exists_of_bind_eq_ok h
  cases h
  obtain ⟨hp, hq⟩ := sourcePoints_eq_ok hpoints
  exact .paired ha hb hp hq

theorem allSourcePoints_eq_ok {as bs : List (Element B)} {points : List (B.G1 × B.G2)}
    (h : c.allSourcePoints as bs = .ok points) (ha : ∀ a ∈ as, held a.value)
    (hb : ∀ b ∈ bs, held b.value) : ∀ pq ∈ points, ∃ v w, held v ∧ held w ∧
      leftPoint v = .ok pq.1 ∧ rightPoint w = .ok pq.2 := by
  induction as generalizing bs points with
  | nil =>
    cases h
    exact List.forall_mem_nil _
  | cons a as ih =>
    cases bs with
    | nil =>
      cases h
      exact List.forall_mem_nil _
    | cons b bs =>
      obtain ⟨hat, has⟩ := List.forall_mem_cons.mp ha
      obtain ⟨hbt, hbs⟩ := List.forall_mem_cons.mp hb
      obtain ⟨pq, hpq, h⟩ := exists_of_bind_eq_ok h
      obtain ⟨rest, hrest, h⟩ := exists_of_bind_eq_ok h
      cases h
      exact List.forall_mem_cons.mpr
        ⟨⟨a.value, b.value, hat, hbt, sourcePoints_eq_ok hpq⟩, ih hrest has hbs⟩

/-- A product that is formed is that of the points of the operands, of which there are as many on
the left as on the right. -/
theorem exists_points_of_pairingProduct {as bs : List (Element B)}
    (h : c.pairingProduct as bs = .ok e) : as.length = bs.length ∧
      ∃ points t, c.allSourcePoints as bs = .ok points ∧
        B.pairingProduct (points.map Prod.fst) (points.map Prod.snd) = .ok t ∧ e = ⟨c, .gt t⟩ := by
  unfold pairingProduct at h
  split at h
  · cases h
  · next hlength =>
    split at h
    · cases h
    obtain ⟨points, hpoints, h⟩ := exists_of_bind_eq_ok h
    split at h
    · next t hproduct =>
      cases h
      exact ⟨of_not_not hlength, points, t, hpoints, hproduct, rfl⟩
    · cases h

theorem pairingProduct_derived {as bs : List (Element B)} (h : c.pairingProduct as bs = .ok e)
    (ha : ∀ a ∈ as, held a.value) (hb : ∀ b ∈ bs, held b.value) :
    Derived held e.group e.value := by
  obtain ⟨-, points, t, hpoints, hproduct, rfl⟩ := exists_points_of_pairingProduct h
  exact .product (allSourcePoints_eq_ok hpoints ha hb) hproduct

end Context

/-! ## Staying inside the groups -/

/-- A source group stays inside a set of points: what comes from outside is in the set, and sums and
multiples of points of the set are. -/
structure SourceGroup.Closed {S P : Type} (G : SourceGroup S P) (member : P → Prop) : Prop where
  identity : member G.identity
  generator : member G.generator
  add {p q : P} : member p → member q → member (G.add p q)
  sub {p q : P} : member p → member q → member (G.sub p q)
  neg {p : P} : member p → member (G.neg p)
  scale (k : S) {p : P} : member p → member (G.scale k p)
  hash {message tag : Bytes} {p : P} : G.hash message tag = .ok p → member p
  random {ws rest : Words} {p : P} : G.random ws = some (p, rest) → member p
  ofUncompressed {bs : Bytes} {p : P} : G.ofUncompressed bs = .ok p → member p
  ofCompressed {bs : Bytes} {p : P} : G.ofCompressed bs = .ok p → member p

/-- A target group stays inside a set. -/
structure TargetGroup.Closed {S T : Type} (G : TargetGroup S T) (member : T → Prop) : Prop where
  identity : member G.identity
  generator : member G.generator
  combine {s t : T} : member s → member t → member (G.combine s t)
  invert {t : T} : member t → member (G.invert t)
  scale (k : S) {t : T} : member t → member (G.scale k t)
  random {ws rest : Words} {t : T} : G.random ws = some (t, rest) → member t
  ofBytes {bs : Bytes} {t : T} : G.ofBytes bs = .ok t → member t

/-- A backend stays inside its groups. Every scalar is one by its type. -/
structure Backend.Membership.Closed (M : B.Membership) : Prop where
  g1 : B.g1.Closed M.g1
  g2 : B.g2.Closed M.g2
  gt : B.target.Closed M.gt
  zr (s : B.Scalar) : M.zr s
  pairing {p : B.G1} {q : B.G2} : M.g1 p → M.g2 q → M.gt (B.pairing p q)
  pairingProduct {ps : List B.G1} {qs : List B.G2} {t : B.Target} :
    B.pairingProduct ps qs = .ok t → (∀ p ∈ ps, M.g1 p) → (∀ q ∈ qs, M.g2 q) → M.gt t
  toG1 {i : SourceIdentification B.G1 B.G2} {q : B.G2} :
    B.identification = some i → M.g2 q → M.g1 (i.toG1 q)
  toG2 {i : SourceIdentification B.G1 B.G2} {p : B.G1} :
    B.identification = some i → M.g1 p → M.g2 (i.toG2 p)

namespace Backend.Membership.Closed

open Value

variable {M : B.Membership} (hM : M.Closed)

include hM

theorem identity (g : Group) : M.Holds (Value.identity g) := by
  cases g with
  | g1 => exact hM.g1.identity
  | g2 => exact hM.g2.identity
  | gt => exact hM.gt.identity
  | zr => exact hM.zr _

theorem one (g : Group) : M.Holds (Value.one g) := by
  cases g with
  | g1 => exact hM.identity .g1
  | g2 => exact hM.identity .g2
  | gt => exact hM.identity .gt
  | zr => exact hM.zr _

theorem generator (h : Value.generator g = .ok v) : M.Holds v := by
  cases g with
  | g1 =>
    cases h
    exact hM.g1.generator
  | g2 =>
    cases h
    exact hM.g2.generator
  | gt =>
    cases h
    exact hM.gt.generator
  | zr => cases h

theorem random {ws rest : Words} (h : Value.random g ws = some (v, rest)) : M.Holds v := by
  cases g <;> obtain ⟨_, hdraw, rfl⟩ := Draw.map_eq_some_iff.mp h
  · exact hM.g1.random hdraw
  · exact hM.g2.random hdraw
  · exact hM.gt.random hdraw
  · exact hM.zr _

theorem hash {message tag : Bytes} (h : Value.hash message tag g = .ok v) : M.Holds v := by
  cases g with
  | g1 =>
    obtain ⟨_, hp, rfl⟩ := exists_of_map_eq_ok h
    exact hM.g1.hash hp
  | g2 =>
    obtain ⟨_, hq, rfl⟩ := exists_of_map_eq_ok h
    exact hM.g2.hash hq
  | gt =>
    cases h
    exact hM.gt.scale _ hM.gt.generator
  | zr =>
    cases h
    exact hM.zr _

theorem decoded {bs : Bytes} (h : Value.ofBytes bs g = .ok v) : M.Holds v := by
  cases g <;> obtain ⟨_, hread, rfl⟩ := exists_of_map_eq_ok h
  · exact hM.g1.ofUncompressed hread
  · exact hM.g2.ofUncompressed hread
  · exact hM.gt.ofBytes hread
  · exact hM.zr _

theorem combine {op : BinaryOp} {a b : Value B} (ha : M.Holds a) (hb : M.Holds b)
    (h : a.combine op b = .ok v) : M.Holds v := by
  unfold Value.combine at h
  split at h
  · cases h
  split at h
  · cases h
    cases op.invertsSecond
    · exact hM.g1.add ha hb
    · exact hM.g1.sub ha hb
  · cases h
    cases op.invertsSecond
    · exact hM.g2.add ha hb
    · exact hM.g2.sub ha hb
  · cases h
    cases op.invertsSecond
    · exact hM.gt.combine ha hb
    · exact hM.gt.combine ha (hM.gt.invert hb)
  · obtain ⟨_, -, rfl⟩ := exists_of_map_eq_ok h
    exact hM.zr _
  · cases h

theorem negative {a : Value B} (ha : M.Holds a) : M.Holds a.negative := by
  cases a with
  | g1 p => exact hM.g1.neg ha
  | g2 q => exact hM.g2.neg ha
  | gt t => exact hM.gt.invert ha
  | zr s => exact hM.zr _

theorem inverse {a : Value B} (ha : M.Holds a) (h : a.inverse = .ok v) : M.Holds v := by
  unfold Value.inverse at h
  split at h
  · cases h
  cases a with
  | zr s =>
    obtain ⟨_, -, rfl⟩ := exists_of_map_eq_ok h
    exact hM.zr _
  | g1 | g2 | gt =>
    cases h
    exact hM.negative ha

theorem multiple (k : B.Scalar) {a : Value B} (ha : M.Holds a) : M.Holds (a.multiple k) := by
  cases a with
  | g1 p => exact hM.g1.scale k ha
  | g2 q => exact hM.g2.scale k ha
  | gt t => exact hM.gt.scale k ha
  | zr s => exact hM.zr _

theorem power (k : B.Scalar) {a : Value B} (ha : M.Holds a) : M.Holds (a.power k) := by
  cases a with
  | zr s => exact hM.zr _
  | g1 | g2 | gt => exact hM.multiple k ha

theorem leftPoint {a : Value B} {p : B.G1} (ha : M.Holds a) (h : Context.leftPoint a = .ok p) :
    M.g1 p := by
  unfold Context.leftPoint at h
  split at h
  · cases h
    exact ha
  · split at h
    · next i hi =>
      cases h
      exact hM.toG1 hi ha
    · cases h
  · cases h

theorem rightPoint {b : Value B} {q : B.G2} (hb : M.Holds b) (h : Context.rightPoint b = .ok q) :
    M.g2 q := by
  unfold Context.rightPoint at h
  split at h
  · cases h
    exact hb
  · split at h
    · next i hi =>
      cases h
      exact hM.toG2 hi hb
    · cases h
  · cases h

/-- Whatever comes about from elements of the groups is an element of its group. -/
theorem derived (hheld : ∀ w, held w → M.Holds w) (h : Derived held g v) : M.Holds v := by
  cases h with
  | identity => exact hM.identity g
  | one => exact hM.one g
  | integer => exact hM.zr _
  | generator h => exact hM.generator h
  | random h => exact hM.random h
  | hash h => exact hM.hash h
  | decoded h => exact hM.decoded h
  | decompressedG1 h => exact hM.g1.ofCompressed h
  | decompressedG2 h => exact hM.g2.ofCompressed h
  | copied ha => exact hheld _ ha
  | combined ha hb h => exact hM.combine (hheld _ ha) (hheld _ hb) h
  | multiple k ha => exact hM.multiple k (hheld _ ha)
  | power k ha => exact hM.power k (hheld _ ha)
  | inverted ha h => exact hM.inverse (hheld _ ha) h
  | negated ha => exact hM.negative (hheld _ ha)
  | paired ha hb hp hq =>
    exact hM.pairing (hM.leftPoint (hheld _ ha) hp) (hM.rightPoint (hheld _ hb) hq)
  -- The points of a product come from the operands pair by pair.
  | product hpoints h =>
    refine hM.pairingProduct h ?_ ?_
    · rintro _ hp
      obtain ⟨pq, hmem, rfl⟩ := List.mem_map.mp hp
      obtain ⟨a, -, ha, -, hleft, -⟩ := hpoints pq hmem
      exact hM.leftPoint (hheld a ha) hleft
    · rintro _ hq
      obtain ⟨pq, hmem, rfl⟩ := List.mem_map.mp hq
      obtain ⟨-, b, -, hb, -, hright⟩ := hpoints pq hmem
      exact hM.rightPoint (hheld b hb) hright

end Backend.Membership.Closed

end BilinearGroups
