import BilinearGroups.Proofs.Parameters.JsonForm
import BilinearGroups.Proofs.Parameters.TextForm
import BilinearGroups.Proofs.Session.Validity

/-!
# Parameters in their forms

A context with a hash domain is described by the domain itself, by JSON or by lines of text. Only
the lines are validated as they are read, but no context is built without that, so for a valid
domain the three descriptions give the same parameters and the same tags.

Together with the exact reading of the JSON form this is `parameter_forms_agree`.
-/

namespace BilinearGroups

open Json Parameters

variable {B : Backend} {number : ℕ} {p : Parameters} {domain : String}

/-- The description of a curve and a hash domain, as it is written out. -/
theorem Parameters.ofLines_describe (domain : String) :
    ofLines (describe ⟨.bls12381, domain⟩) = "curve bls12-381\nhash_domain " ++ domain := by
  rw [← String.toList_inj, ofLines, String.toList_ofList, String.toList_append]
  simp [Text.unlines, describe, CurveName.name, List.intercalate]

/-- The context is the one with these parameters and their tags. -/
structure Context.Describes (c : Context B) (p : Parameters) : Prop where
  parameters : c.parameters = p
  tag (g : Group) : c.tag g = p.tag g

theorem Context.exists_create (hp : p.validate = .ok ()) :
    ∃ c, create B number p = .ok c ∧ c.Describes p :=
  ⟨_, create_eq_ok_iff.mpr ⟨hp, rfl⟩, rfl, fun g ↦ PerGroup.get_ofFunction p.tag g⟩

namespace Session.Description

/-- The descriptions of a hash domain that a text describes too. -/
def forms (domain text : String) : List Description :=
  [.domain domain, .json text, .text ("curve bls12-381\nhash_domain " ++ domain)]

theorem build_forms (hvalid : (default.withHashDomain domain).validate = .ok ()) {x : Json.Padded}
    (hx : IsText .bls12381 (some domain) x.text) {description : Description}
    (h : description ∈ forms domain (String.ofList x.render)) :
    ∃ c, description.build B number = .ok c ∧ c.Describes (default.withHashDomain domain) := by
  obtain ⟨c, hcreate, hc⟩ : ∃ c, Context.create B number (default.withHashDomain domain) = .ok c ∧
      c.Describes (default.withHashDomain domain) := Context.exists_create hvalid
  simp only [forms, List.mem_cons, List.not_mem_nil, or_false] at h
  rcases h with rfl | rfl | rfl
  · exact ⟨c, accept_eq_ok_iff.mpr hcreate, hc⟩
  · have hread : readable (ofJson (String.ofList x.render))
        = .ok (default.withHashDomain domain) := by
      rw [ofJson_of_isText hx]
      rfl
    refine ⟨c, ?_, hc⟩
    rw [build, hread]
    exact accept_eq_ok_iff.mpr hcreate
  · have hparse : parse ("curve bls12-381\nhash_domain " ++ domain)
        = .ok (default.withHashDomain domain) := by
      rw [← ofLines_describe]
      exact parse_describe hvalid
    refine ⟨c, accept_eq_ok_iff.mpr ?_, hc⟩
    rw [Context.ofDescription, hparse]
    exact hcreate

end Session.Description

open Session (Description)

/-- **The forms of parameters agree.** Parameters are read back from their JSON text, whatever the
hash domain is. Every text of a record of a curve and at most one hash domain is read as these, with
the default domain where there is none, and an object that has one of the two names twice is
refused. The contexts that are described by a valid hash domain, by JSON with this domain and by the
two lines of text have the same parameters and the same tags. -/
theorem parameter_forms_agree :
    (∀ p : Parameters, ofJson p.toJson = .ok p) ∧
    (∀ (curve : CurveName) (domain? : Option String) (x : Json.Padded),
      IsText curve domain? x.text →
        ofJson (String.ofList x.render) = .ok ⟨curve, domain?.getD defaultHashDomain⟩) ∧
    (∀ (x : Json.Padded) (ws : List Char) (members : List Member) (m m' : Member) (name : String),
      x.text = objectText ws members → Blanks ws → (∀ m ∈ members, StringText m.key.text) →
      (∀ m ∈ members, ValueText m.value.text) → [m, m'].Sublist members →
      name = "curve" ∨ name = "hash_domain" → Spells name.toList m.key.text →
      Spells name.toList m'.key.text →
        ∃ reason, ofJson (String.ofList x.render) = .error reason) ∧
    ∀ (B : Backend) (number : ℕ) (domain : String),
      (default.withHashDomain domain).validate = .ok () → ∀ x : Json.Padded,
      IsText .bls12381 (some domain) x.text →
      ∀ description ∈ Description.forms domain (String.ofList x.render),
        ∃ c, description.build B number = .ok c ∧ c.Describes (default.withHashDomain domain) := by
  refine ⟨ofJson_toJson, fun _ _ _ h ↦ ofJson_of_isText h, ?_, ?_⟩
  · intro x ws members m m' name htext hws hkeys hvalues hpair hname hm hm'
    exact ofJson_of_repeated htext hws hkeys hvalues hpair hname hm hm'
  · intro B number domain hvalid x hx description h
    exact Description.build_forms hvalid hx h

/-- An object with the curve between other members. -/
def curveMembers : List Member :=
  [⟨.bare ['x'], .bare "null".toList⟩, ⟨.bare "curve".toList, .bare "\"bls12-381\"".toList⟩,
    ⟨.bare ['x'], .bare "true".toList⟩]

theorem isText_curveMembers : IsText .bls12381 none (objectText [] curveMembers) := by
  have hx : Spells "x".toList ['x'] := spells_flatMap_escapeChar ['x']
  have hcurve : CurveName.Names .bls12381 "\"bls12-381\"".toList := nameText_printString "bls12-381"
  exact .object (List.forall_mem_nil _) (.cons (.other hx (by decide) (by decide) .null)
    (.cons (.first (spells_flatMap_escapeChar "curve".toList) hcurve)
      (.cons (.other hx (by decide) (by decide) .yes) .nil))) rfl rfl

/-- A domain with a quote, a control character and one beyond the first plane is read back; an
object with the curve alone has the default domain, and one with two domains is refused. A valid
domain is described in three ways. -/
theorem parameter_forms_agree_samples :
    ofJson (toJson ⟨.bls12381, "\"\\\x00😀"⟩) = .ok ⟨.bls12381, "\"\\\x00😀"⟩ ∧
    ofJson (String.ofList (objectText [] curveMembers)) = .ok default ∧
    (∃ reason, ofJson "\x7b\"hash_domain\":null,\"hash_domain\":null\x7d" = .error reason) ∧
    ∀ description ∈ Description.forms "APP" (toJson ⟨.bls12381, "APP"⟩),
      ∃ c : Context exponentModel, description.build exponentModel 3 = .ok c ∧
        c.Describes (default.withHashDomain "APP") := by
  obtain ⟨hround, hread, hrepeated, hforms⟩ := parameter_forms_agree
  refine ⟨hround _, ?_, ?_, ?_⟩
  · have hdefault := hread .bls12381 none (.bare _) isText_curveMembers
    rwa [Json.Padded.render_bare] at hdefault
  · let m : Member := ⟨.bare "hash_domain".toList, .bare "null".toList⟩
    have hname : Spells "hash_domain".toList m.key.text :=
      spells_flatMap_escapeChar "hash_domain".toList
    have hvalue : ValueText m.value.text := .null
    have hkeys : ∀ m' ∈ [m, m], StringText m'.key.text := by simpa using hname.stringText
    have hvalues : ∀ m' ∈ [m, m], ValueText m'.value.text := by simpa using hvalue
    have hrefused := hrepeated (.bare (objectText [] [m, m])) [] [m, m] m m "hash_domain" rfl
      (List.forall_mem_nil _) hkeys hvalues (List.Sublist.refl _) (.inr rfl) hname hname
    rwa [Json.Padded.render_bare] at hrefused
  · have happ := hforms exponentModel 3 "APP" rfl (.bare _) (isText_toJson ⟨.bls12381, "APP"⟩)
    rwa [Json.Padded.render_bare, String.ofList_toList] at happ

end BilinearGroups
