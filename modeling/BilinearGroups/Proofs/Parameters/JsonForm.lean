import BilinearGroups.Parameters
import BilinearGroups.Proofs.Json.Repeats

/-!
# The JSON form of parameters

Parameters are written as an object of the curve and the hash domain, and are read back whatever
text the hash domain is: reading does not validate. Every other text of this record is read as well,
whatever the order of the members, their blanks and the spelling of strings, and whatever other
members there are. An object without a hash domain has the default one. An object that gives the
curve or the hash domain twice is refused.
-/

namespace BilinearGroups

open Json

/-- The text names a curve. -/
def CurveName.Names (curve : CurveName) (text : List Char) : Prop := NameText curve.name text

theorem CurveName.reads_names : Reads CurveName.readJson CurveName.Names where
  read {curve x} hx rest := by
    cases curve
    rw [readJson, readName_nameText (List.mem_singleton.mpr rfl) hx]
    rfl
  starts := NameText.starts

theorem CurveName.readJson_readsToEnd : ReadsToEnd CurveName.readJson := by
  intro x hx c cs hc curve rest h
  obtain ⟨⟨name, after⟩, hname, h⟩ := exists_of_bind_eq_ok h
  cases h
  exact readName_readsToEnd _ hx hc hname

namespace Parameters

variable {curve : CurveName} {domain? : Option String} {x : Json.Padded}

/-- The text is that of a curve and a hash domain, which an object may leave out. -/
inductive IsText (curve : CurveName) (domain? : Option String) : List Char → Prop
  /-- The members of an object hold the curve once and the hash domain at most once. -/
  | object {ws : List Char} {members : List Member} {contents : List (Content CurveName String)} :
    Blanks ws → List.Forall₂ (record.MemberText CurveName.Names QuotedText) members contents →
    contents.filterMap Content.first? = [curve] →
    contents.filterMap Content.second? = domain?.toList →
      IsText curve domain? (objectText ws members)
  /-- The curve and the hash domain are the two items of a list. -/
  | list {ws : List Char} {y z : Json.Padded} {domain : String} : domain? = some domain →
    Blanks ws → curve.Names y.text → QuotedText domain z.text →
      IsText curve domain? (listText ws [y, z])

/-! ## Reading -/

theorem names_ne : record.firstName ≠ record.secondName := by decide

/-- The hash domain is the default one where none is given. -/
theorem IsText.read (h : IsText curve domain? x.text) (rest : List Char) :
    record.read (x.render ++ rest) =
      .ok ((curve, domain?.getD defaultHashDomain), x.after ++ rest) := by
  have hcurve := CurveName.reads_names
  have hdomain := reads_quotedText "a string"
  generalize htext : x.text = text at h
  cases h with
  | object hws hmembers hcurves hdomains =>
    have hcurves : _ = (some curve).toList := hcurves
    rw [Record.read_object hcurve hdomain names_ne htext hws hmembers hcurves hdomains]
    cases domain? <;> rfl
  | list hsome hws hy hz =>
    subst hsome
    exact Record.read_list hcurve hdomain htext hws hy hz rest

theorem ofJson_of_isText (h : IsText curve domain? x.text) :
    ofJson (String.ofList x.render) = .ok ⟨curve, domain?.getD defaultHashDomain⟩ := by
  have hread := h.read []
  rw [List.append_nil, List.append_nil] at hread
  rw [ofJson, readWhole_render hread]
  rfl

/-- A record of both values gives the hash domain. -/
theorem IsText.of_text {domain : String} {text : List Char}
    (h : record.Text CurveName.Names QuotedText curve domain text) :
    IsText curve (some domain) text := by
  cases h with
  | object hws hmembers hcurves hdomains => exact .object hws hmembers hcurves hdomains
  | list hws hy hz => exact .list rfl hws hy hz

theorem isText_toJson (p : Parameters) :
    IsText p.curve (some p.hashDomain) (Json.Padded.bare p.toJson.toList).text := by
  rw [Json.Padded.text_bare]
  exact .of_text (Record.text_printRecord (nameText_printString p.curve.name)
    (quotedText_printString p.hashDomain))

/-- Parameters are read back from their text, also where no context can be built from them. -/
theorem ofJson_toJson (p : Parameters) : ofJson p.toJson = .ok p := by
  have hread := ofJson_of_isText (isText_toJson p)
  rwa [Json.Padded.render_bare, String.ofList_toList] at hread

/-! ## Names that occur twice -/

theorem ofJson_of_repeated {ws : List Char} {members : List Member} {m m' : Member} {name : String}
    (htext : x.text = objectText ws members) (hws : Blanks ws)
    (hkeys : ∀ m ∈ members, StringText m.key.text)
    (hvalues : ∀ m ∈ members, ValueText m.value.text) (hpair : [m, m'].Sublist members)
    (hname : name = "curve" ∨ name = "hash_domain") (hm : Spells name.toList m.key.text)
    (hm' : Spells name.toList m'.key.text) :
    ∃ reason, ofJson (String.ofList x.render) = .error reason := by
  cases hread : ofJson (String.ofList x.render) with
  | error reason => exact ⟨reason, rfl⟩
  | ok p =>
    obtain ⟨⟨curve, domain⟩, hwhole, -⟩ := exists_of_bind_eq_ok hread
    obtain ⟨y, hrecord, -⟩ := exists_of_bind_eq_ok hwhole
    rw [String.toList_ofList, ← List.append_nil x.render] at hrecord
    have hdistinct := Record.distinct_of_read CurveName.readJson_readsToEnd
      (readString_readsToEnd "a string") names_ne htext hws hkeys hvalues [] hrecord
    have hmem : name ∈ record.names := by
      rcases hname with rfl | rfl <;> simp [Record.names, record]
    exact absurd hm' (List.pairwise_pair.mp (hdistinct.sublist hpair) name hmem hm)

end Parameters

end BilinearGroups
