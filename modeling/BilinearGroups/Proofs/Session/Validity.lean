import BilinearGroups.Backend.Curve
import BilinearGroups.Backend.ExponentModel
import BilinearGroups.Proofs.Element.Result
import BilinearGroups.Proofs.Parameters.Validity
import BilinearGroups.Proofs.Session.Lineage

/-!
# Contexts that are held are valid

A context is built in one place, and only from valid parameters. Every handle that a session holds
descends from a context that was built there, whatever happened since: so the parameters of a
context are valid, and the tags that it keeps are the tags of its parameters.

A tag that is used for hashing is therefore short and printable. It is never replaced by a digest,
it is a text wherever one is expected, and hashing into an element cannot fail, as long as the
backend hashes under tags of that kind.
-/

namespace BilinearGroups

open Parameters (IsTag)

variable {B : Backend}

/-! ## Contexts -/

/-- The parameters of the context are valid, and the context keeps their tags. -/
structure Context.IsValid (c : Context B) : Prop where
  parameters : c.parameters.validate = .ok ()
  tags : c.tags = PerGroup.ofFunction c.parameters.tag

namespace Context

variable {c : Context B} {number : ℕ} {p : Parameters}

/-- A context is built from valid parameters and from no others. -/
theorem create_eq_ok_iff : create B number p = .ok c ↔ p.validate = .ok () ∧
    c = ⟨number, p, B.scalars.orderBytes, PerGroup.ofFunction p.tag⟩ := by
  unfold create
  cases p.validate with
  | error reason => exact iff_of_false nofun nofun
  | ok =>
    rw [and_iff_right rfl]
    exact ⟨fun h ↦ (Except.ok.inj h).symm, fun h ↦ congrArg Except.ok h.symm⟩

theorem exists_create_iff : (∃ c, create B number p = .ok c) ↔ p.validate = .ok () :=
  ⟨fun ⟨_, h⟩ ↦ (create_eq_ok_iff.mp h).1, fun h ↦ ⟨_, create_eq_ok_iff.mpr ⟨h, rfl⟩⟩⟩

theorem isValid_of_create (h : create B number p = .ok c) : c.IsValid := by
  obtain ⟨hvalid, rfl⟩ := create_eq_ok_iff.mp h
  exact ⟨hvalid, rfl⟩

theorem isValid_of_ofDescription {text : String} (h : ofDescription B number text = .ok c) :
    c.IsValid := by
  unfold ofDescription at h
  split at h
  · cases h
  · exact isValid_of_create h

namespace IsValid

variable (h : c.IsValid)

include h

theorem tag_eq (g : Group) : c.tag g = c.parameters.tag g := by
  rw [tag, h.tags, PerGroup.get_ofFunction]

theorem isTag (g : Group) : IsTag (c.tag g) := by
  rw [h.tag_eq]
  exact Parameters.isTag_of_validate h.parameters g

/-- The tags are kept in the order in which the groups are declared. -/
theorem getElem?_tags (g : Group) :
    (Group.all.map c.parameters.tag)[g.ctorIdx]? = some (c.tag g) := by
  rw [h.tag_eq]
  cases g <;> rfl

end IsValid

end Context

/-! ## Sessions -/

namespace Session

theorem Description.isValid_of_build {description : Description} {number : ℕ} {c : Context B}
    (h : description.build B number = .ok c) : c.IsValid := by
  cases description with
  | standard => exact Context.isValid_of_create (accept_eq_ok_iff.mp h)
  | domain hashDomain => exact Context.isValid_of_create (accept_eq_ok_iff.mp h)
  | json source =>
    obtain ⟨p, -, h⟩ := exists_of_bind_eq_ok h
    exact Context.isValid_of_create (accept_eq_ok_iff.mp h)
  | text source => exact Context.isValid_of_ofDescription (accept_eq_ok_iff.mp h)

/-- A call hands on valid contexts, and what it creates is valid. -/
theorem Performed.isValid_of_handle? {s s' : Session B} {call : Call}
    (h : s.Performed call s') (hs : ∀ place c, s.handle? place = some c → c.IsValid) :
    ∀ place c, s'.handle? place = some c → c.IsValid := by
  intro place c hc
  rcases h.descends place with ⟨-, hhandle⟩ | ⟨-, -, hbuild, hhandle, -⟩ | ⟨-, hhandle⟩
  · exact hs _ c (hhandle.symm.trans hc)
  · obtain rfl := Option.some.inj (hhandle.symm.trans hc)
    exact Description.isValid_of_build hbuild
  · cases hhandle.symm.trans hc

/-- Whatever calls are made from an empty session, the contexts that are held are valid. -/
theorem isValid_of_handle?_run (calls : List Call) :
    ∀ place (c : Context B), ((empty B).run calls).handle? place = some c → c.IsValid := by
  refine run_invariant (I := fun s ↦ ∀ place c, s.handle? place = some c → c.IsValid) ?_ ?_
  · rintro (name | name) c h <;> cases h
  · intro call _ s s' hs hperformed
    exact hperformed.isValid_of_handle? hs

end Session

/-! ## Hashing under tags -/

/-- Under a tag that is short and printable, hashing into the source groups succeeds. -/
structure Backend.HashesTags (B : Backend) : Prop where
  g1 (message : Bytes) {tag : String} :
    IsTag tag → ∃ p, B.g1.hash message (Bytes.ofText tag) = .ok p
  g2 (message : Bytes) {tag : String} :
    IsTag tag → ∃ q, B.g2.hash message (Bytes.ofText tag) = .ok q

theorem torusBackendOver_hashesTags (M : Torus.Maps) : (torusBackendOver M).HashesTags :=
  ⟨fun _ _ _ ↦ ⟨_, rfl⟩, fun _ _ _ ↦ ⟨_, rfl⟩⟩

theorem coefficientBackend_hashesTags : coefficientBackend.HashesTags :=
  ⟨fun _ _ _ ↦ ⟨_, rfl⟩, fun _ _ _ ↦ ⟨_, rfl⟩⟩

theorem exponentModel_hashesTags : exponentModel.HashesTags :=
  ⟨fun _ _ _ ↦ ⟨_, if_pos (Bytes.validateUTF8_ofText _)⟩,
    fun _ _ _ ↦ ⟨_, if_pos (Bytes.validateUTF8_ofText _)⟩⟩

theorem Backend.HashesTags.exists_hash (hB : B.HashesTags) (message : Bytes) {tag : String}
    (htag : IsTag tag) (g : Group) :
    ∃ v : Value B, Value.hash message (Bytes.ofText tag) g = .ok v := by
  cases g with
  | g1 =>
    obtain ⟨p, hp⟩ := hB.g1 message htag
    exact ⟨.g1 p, congrArg (Except.map Value.g1) hp⟩
  | g2 =>
    obtain ⟨q, hq⟩ := hB.g2 message htag
    exact ⟨.g2 q, congrArg (Except.map Value.g2) hq⟩
  | gt => exact ⟨_, rfl⟩
  | zr => exact ⟨_, rfl⟩

/-- Hashing into an element of a valid context succeeds. -/
theorem Element.exists_setFromHash (hB : B.HashesTags) {e : Element B} (he : e.context.IsValid)
    (message : Bytes) : ∃ v, (setFromHash message).result e = .ok (e.withValue v) := by
  obtain ⟨v, hv⟩ := hB.exists_hash message (he.isTag e.group) e.group
  refine ⟨v, ?_⟩
  rw [setFromHash_result, hv]
  rfl

/-- A tag that is short enough closes the input of a hash as it is. -/
theorem Parameters.IsTag.closing_eq {tag : String} (h : IsTag tag) :
    ExpandMessage.closing (Bytes.ofText tag) =
      Bytes.ofText tag ++ [UInt8.ofNat (Bytes.ofText tag).length] := by
  have hlength : (Bytes.ofText tag).length ≤ 255 := h.length_le
  rw [ExpandMessage.closing, if_pos hlength]

/-! ## Validity -/

/-- Parameters are valid exactly if the hash domain has from 1 to 223 bytes, all of them printable,
and a context is built from valid parameters and from no others. After any calls from an empty
session, whatever context is held under a name or inside an element has valid parameters and keeps
their tags, in the order in which the groups are declared; and each is short and printable. So the
tag of an element is never replaced by a digest and is always a text, and hashing into an element
succeeds over a backend that hashes under such tags, as all three do. -/
theorem contexts_valid :
    ((∀ M, (torusBackendOver M).HashesTags) ∧ coefficientBackend.HashesTags ∧
      exponentModel.HashesTags) ∧
    (∀ p : Parameters, p.validate = .ok () ↔
      1 ≤ (Bytes.ofText p.hashDomain).length ∧ (Bytes.ofText p.hashDomain).length ≤ 223 ∧
        Bytes.IsGraphic (Bytes.ofText p.hashDomain)) ∧
    ∀ B : Backend,
      (∀ number p, (∃ c, Context.create B number p = .ok c) ↔ p.validate = .ok ()) ∧
      ∀ calls : List Session.Call,
        (∀ place c, ((Session.empty B).run calls).handle? place = some c →
          c.parameters.validate = .ok () ∧ ∀ g, c.tag g = c.parameters.tag g ∧
            (Group.all.map c.parameters.tag)[g.ctorIdx]? = some (c.tag g) ∧ IsTag (c.tag g)) ∧
        ∀ name e, ((Session.empty B).run calls).elements.get? name = some e →
          let tag := Bytes.ofText (e.context.tag e.group)
          ExpandMessage.closing tag = tag ++ [UInt8.ofNat tag.length] ∧
            tag.toByteArray.validateUTF8 = true ∧
            (B.HashesTags → ∀ message, ∃ v,
              (Element.setFromHash message).result e = .ok (e.withValue v)) := by
  refine ⟨⟨torusBackendOver_hashesTags, coefficientBackend_hashesTags, exponentModel_hashesTags⟩,
    fun _ ↦ Parameters.validate_eq_ok_iff, fun B ↦ ⟨fun _ _ ↦ Context.exists_create_iff, ?_⟩⟩
  intro calls
  constructor
  · intro place c hc
    have hvalid := Session.isValid_of_handle?_run calls place c hc
    exact ⟨hvalid.parameters, fun g ↦ ⟨hvalid.tag_eq g, hvalid.getElem?_tags g, hvalid.isTag g⟩⟩
  · intro name e he
    have hheld := Session.handle?_of_element (Session.element_eq_ok_iff.mpr he)
    have hvalid : e.context.IsValid := Session.isValid_of_handle?_run calls _ _ hheld
    exact ⟨(hvalid.isTag e.group).closing_eq, Bytes.validateUTF8_ofText _,
      fun hB ↦ Element.exists_setFromHash hB hvalid⟩

/-- A context with a hash domain of its own, one with a hash domain that is refused, and a point of
the first context, which is dropped afterwards. -/
def taggedCalls : List Session.Call :=
  [.createContext "c" (.domain "APP"), .createContext "d" (.domain "two words"),
    .create "P" (.fresh "c" .g2), .dropContext "c"]

theorem contexts_valid_tagged :
    ∃ e, ((Session.empty exponentModel).run taggedCalls).elements.get? "P" = some e ∧
      e.context.tag .g2 = "APP_BLS12381G2_XMD:SHA-256_SSWU_RO_" ∧
      e.context.parameters.validate = .ok () ∧
      ∃ v, (Element.setFromHash [1, 2, 3]).result e = .ok (e.withValue v) := by
  obtain ⟨⟨-, -, hhashes⟩, -, hvalid⟩ := contexts_valid
  obtain ⟨hcontexts, helements⟩ := (hvalid exponentModel).2 taggedCalls
  exact ⟨_, rfl, rfl, (hcontexts (.element "P") _ rfl).1, (helements "P" _ rfl).2.2 hhashes _⟩

end BilinearGroups
