import BilinearGroups.Proofs.Element.Update

/-!
# Values that belong to their groups

The types of a backend may hold more than the elements of its groups: a pair of coordinates need not
lie on a curve. A `Membership` says which values are elements, one predicate for each group, and
`Holds` is membership of a value in its own group.

Bytes become values in three ways (`DecodedFrom`): through a reader of the backend, through a new
element, or through an element that takes a value. All three give what the reader gives and test
nothing more.
-/

namespace BilinearGroups

/-- Which values of the types of a backend are elements of its groups. -/
structure Backend.Membership (B : Backend) where
  /-- The elements of the first source group. -/
  g1 : B.G1 → Prop
  /-- The elements of the second source group. -/
  g2 : B.G2 → Prop
  /-- The elements of the target group. -/
  gt : B.Target → Prop
  /-- The scalars. -/
  zr : B.Scalar → Prop

variable {B : Backend}

/-- The value is an element of its group. -/
def Backend.Membership.Holds (M : B.Membership) : Value B → Prop
  | .g1 p => M.g1 p
  | .g2 q => M.g2 q
  | .gt t => M.gt t
  | .zr s => M.zr s

/-- The elements of the groups are read back from their encodings, which have the right lengths. -/
structure Backend.Membership.ReadsBack (M : B.Membership) : Prop where
  g1 {p : B.G1} : M.g1 p → (B.g1.toUncompressed p).length = B.g1.uncompressedLength ∧
    B.g1.ofUncompressed (B.g1.toUncompressed p) = .ok p
  g2 {q : B.G2} : M.g2 q → (B.g2.toUncompressed q).length = B.g2.uncompressedLength ∧
    B.g2.ofUncompressed (B.g2.toUncompressed q) = .ok q
  gt {t : B.Target} : M.gt t → (B.target.toBytes t).length = B.target.byteLength ∧
    B.target.ofBytes (B.target.toBytes t) = .ok t
  zr {s : B.Scalar} : M.zr s → (B.scalars.toBytes s).length = B.scalars.byteLength ∧
    B.scalars.ofBytes (B.scalars.toBytes s) = .ok s

/-- Where encodings are read back, an element with a value of its group is. -/
theorem Element.ofBytes_toBytes {M : B.Membership} (hM : M.ReadsBack) {e : Element B}
    (h : M.Holds e.value) : Element.ofBytes e.context e.group e.toBytes = .ok e := by
  obtain ⟨c, v⟩ := e
  refine ofBytes_eq_ok_iff.mpr ?_
  cases v with
  | g1 p =>
    obtain ⟨hlength, hread⟩ := hM.g1 h
    exact ⟨rfl, hlength, congrArg (Except.map Value.g1) hread⟩
  | g2 q =>
    obtain ⟨hlength, hread⟩ := hM.g2 h
    exact ⟨rfl, hlength, congrArg (Except.map Value.g2) hread⟩
  | gt t =>
    obtain ⟨hlength, hread⟩ := hM.gt h
    exact ⟨rfl, hlength, congrArg (Except.map Value.gt) hread⟩
  | zr s =>
    obtain ⟨hlength, hread⟩ := hM.zr h
    exact ⟨rfl, hlength, congrArg (Except.map Value.zr) hread⟩

namespace Value

/-- The value of a point. -/
def IsPoint : Value B → Prop
  | g1 _ | g2 _ => True
  | gt _ | zr _ => False

/-- The bytes became the value, by any way of decoding. -/
inductive DecodedFrom (bs : Bytes) : Value B → Prop
  /-- A full form was read in the first source group. -/
  | readG1 {p : B.G1} : B.g1.ofUncompressed bs = .ok p → DecodedFrom bs (g1 p)
  /-- A full form was read in the second source group. -/
  | readG2 {q : B.G2} : B.g2.ofUncompressed bs = .ok q → DecodedFrom bs (g2 q)
  /-- A new element was decoded. -/
  | element {c : Context B} {g : Group} {e : Element B} :
    Element.ofBytes c g bs = .ok e → DecodedFrom bs e.value
  /-- An element took the value with the encoding. -/
  | receiver {e e' : Element B} :
    (Element.setFromBytes bs).run e = .ok () e' → DecodedFrom bs e'.value

theorem group_of_ofBytes {bs : Bytes} {g : Group} {v : Value B} (h : ofBytes bs g = .ok v) :
    v.group = g := by
  cases g <;>
    · obtain ⟨_, -, rfl⟩ := exists_of_map_eq_ok h
      rfl

/-- Whatever way bytes are decoded, the value is the one that the backend reads. -/
theorem DecodedFrom.ofBytes_eq {bs : Bytes} {v : Value B} (h : DecodedFrom bs v) :
    ofBytes bs v.group = .ok v := by
  cases h with
  | readG1 h =>
    rw [group, ofBytes, h]
    rfl
  | readG2 h =>
    rw [group, ofBytes, h]
    rfl
  | element h =>
    obtain ⟨-, -, hv⟩ := Element.ofBytes_eq_ok_iff.mp h
    rw [group_of_ofBytes hv, hv]
  | @receiver e e' h =>
    obtain ⟨v, ⟨-, hv⟩, rfl⟩ := (Element.setFromBytes_replaces bs).of_run h
    show ofBytes bs v.group = .ok v
    rw [group_of_ofBytes hv, hv]

end Value

end BilinearGroups
