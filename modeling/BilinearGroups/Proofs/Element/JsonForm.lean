import BilinearGroups.Proofs.Backend.Encodings
import BilinearGroups.Proofs.Element.CanonicalForm
import BilinearGroups.Proofs.Json.Records

/-!
# The JSON form of elements

An element is written as a record of its group and its canonical encoding, and every text of such a
record is read as the element that the encoding stands for: whatever the order of the members, their
blanks and the spelling of strings, and whatever other members there are. A group that is not
accepted is refused before the bytes are looked at. What follows the text is left alone.
-/

namespace BilinearGroups

open Json Bls12

/-- The text names a group. -/
def Group.Names (g : Group) (text : List Char) : Prop := NameText g.name text

theorem Group.reads_names : Reads Group.readJson Group.Names where
  read {g x} hx rest := by
    have hmem : g.name ∈ Group.all.map Group.name := by cases g <;> decide
    have hname : Group.ofName? g.name = some g := by cases g <;> rfl
    rw [readJson, readName_nameText hmem hx]
    simp only [bind, Except.bind, hname]
    rfl
  starts := NameText.starts

namespace Element

variable {B : Backend} {c : Context B} {e : Element B} {g : Group} {bs : Bytes}

/-- The text is that of a record of a group and an encoding. -/
def IsText (g : Group) (bs : Bytes) (text : List Char) : Prop :=
  record.Text Group.Names BytesText g bs text

theorem IsText.read {x : Padded} (h : IsText g bs x.text) (rest : List Char) :
    record.read (x.render ++ rest) = .ok ((g, bs), x.after ++ rest) :=
  Json.Record.Text.read Group.reads_names reads_bytesText (by decide) h rest

theorem isText_toJson (e : Element B) :
    IsText e.group e.toBytes (Padded.bare e.toJson.toList).text := by
  rw [Padded.text_bare]
  exact Json.Record.text_printRecord (nameText_printString e.group.name)
    (bytesText_printBytes e.toBytes)

theorem readJson_accepted {accepted? : Option Group} (hg : accepted? ∈ [none, some g]) {x : Padded}
    (h : IsText g bs x.text) (rest : List Char) :
    readJson c accepted? (x.render ++ rest) = ((ofBytes c g bs).mapError fun reason ↦
      Json.Error.data (.refused reason.message)).map (·, x.after ++ rest) := by
  have hrecord : ofRecord c accepted? g bs = ofBytes c g bs := by
    simp only [List.mem_cons, List.not_mem_nil, or_false] at hg
    obtain rfl | rfl := hg
    · rfl
    · exact if_neg (not_not.mpr rfl)
  rw [readJson_eq, h.read rest, ← hrecord]
  rfl

theorem readJson_refused {expected : Group} (hg : expected ≠ g) {x : Padded}
    (h : IsText g bs x.text) (rest : List Char) :
    readJson c (some expected) (x.render ++ rest) =
      .error (.data (.refused (Error.wrongGroup expected g).message)) := by
  -- The group is looked at first, so nothing is asked of the bytes.
  have hrecord : ofRecord c (some expected) g bs = .error (.wrongGroup expected g) :=
    if_pos hg.symm
  rw [readJson_eq, h.read rest]
  simp only [bind, Except.bind, hrecord]
  rfl

/-- A member is read back from its text, in any context. -/
theorem readJson_toJson {M : B.Membership} (hM : M.ReadsBack) (he : M.Holds e.value)
    {accepted? : Option Group} (haccepted : accepted? ∈ [none, some e.group]) (c : Context B)
    (rest : List Char) :
    readJson c accepted? (e.toJson.toList ++ rest) = .ok (⟨c, e.value⟩, rest) := by
  have hread := readJson_accepted (c := c) haccepted (isText_toJson e) rest
  rw [Padded.render_bare, ofBytes_toBytes_of_context hM he c] at hread
  exact hread

theorem readJson_toJson_refused {expected : Group} (h : expected ≠ e.group) (c : Context B)
    (rest : List Char) : readJson c (some expected) (e.toJson.toList ++ rest) =
      .error (.data (.refused (Error.wrongGroup expected e.group).message)) := by
  have hread := readJson_refused (c := c) h (isText_toJson e) rest
  rw [Padded.render_bare] at hread
  exact hread

/-- An element that is read belongs to the group that is accepted. -/
theorem group_of_readJson {expected : Group} {text rest : List Char}
    (h : readJson c (some expected) text = .ok (e, rest)) : e.group = expected := by
  rw [readJson_eq] at h
  obtain ⟨⟨⟨g, bs⟩, after⟩, -, h⟩ := exists_of_bind_eq_ok h
  obtain ⟨e', he', heq⟩ := exists_of_map_eq_ok h
  cases heq
  cases hrecord : ofRecord c (some expected) g bs with
  | error reason =>
    rw [hrecord] at he'
    cases he'
  | ok e' =>
    rw [hrecord] at he'
    cases he'
    rw [ofRecord] at hrecord
    split_ifs at hrecord with hg
    obtain ⟨-, -, hread⟩ := ofBytes_eq_ok_iff.mp hrecord
    exact (Value.group_of_ofBytes hread).trans (of_not_not hg)

/-- On every backend, a member is read back from its JSON text, whatever follows the text, and where
another group is expected it is refused for its group. Every text of a record of a group and bytes
is read as the element with these bytes, or refused for the same reason, and where another group is
expected it is refused for its group, whether or not the bytes stand for an element. And what is
read where a group is expected belongs to this group. -/
theorem json_form_exact :
    (∀ {B : Backend} {M : B.Membership}, M.Supported → ∀ (c : Context B) (e : Element B),
      M.Holds e.value → ∀ rest : List Char,
        (∀ accepted? ∈ [none, some e.group], ∃ e',
          readJson c accepted? (e.toJson.toList ++ rest) = .ok (e', rest) ∧
            e'.context = c ∧ e'.group = e.group ∧
            (c.sameAs e.context = true → e'.equal e = true)) ∧
        ∀ g, g ≠ e.group → readJson c (some g) (e.toJson.toList ++ rest) =
          .error (.data (.refused (Error.wrongGroup g e.group).message))) ∧
    (∀ {B : Backend} (c : Context B) (g : Group) (bs : Bytes) (x : Padded), IsText g bs x.text →
      ∀ rest : List Char,
        (∀ expected, expected ≠ g → readJson c (some expected) (x.render ++ rest) =
          .error (.data (.refused (Error.wrongGroup expected g).message))) ∧
        ∀ accepted? ∈ [none, some g], readJson c accepted? (x.render ++ rest) =
          ((ofBytes c g bs).mapError fun reason ↦ Json.Error.data (.refused reason.message)).map
            (·, x.after ++ rest)) ∧
    ∀ {B : Backend} (c : Context B) (expected : Group) (text : List Char) (e : Element B)
      (rest : List Char), readJson c (some expected) text = .ok (e, rest) → e.group = expected := by
  refine ⟨?_, ?_, fun _ _ _ _ _ h ↦ group_of_readJson h⟩
  · intro B M hM c e he rest
    constructor
    · intro accepted? haccepted
      exact ⟨_, readJson_toJson hM.readsBack he haccepted c rest, rfl, rfl,
        fun hsame ↦ (equal_iff_value hsame).mpr rfl⟩
    · exact fun g hg ↦ readJson_toJson_refused hg c rest
  · intro B c g bs x hx rest
    exact ⟨fun _ hexpected ↦ readJson_refused hexpected hx rest,
      fun _ haccepted ↦ readJson_accepted haccepted hx rest⟩

/-- A number with all its parts. -/
def mixedNumber : List Char := ['-'] ++ (['0'] ++ ('.' :: ['5'] ++ 'e' :: (['+'] ++ ['1'])))

/-- The members of an object: one that is skipped, the bytes after a blank, and the group under a
name of which one letter is written by its number. -/
def mixedMembers : List Member :=
  [⟨.bare ['x'], .bare (listText [] [.bare mixedNumber])⟩,
    ⟨.bare "bytes".toList, .bare (listText [' '] [.bare ['1'], .bare ['2', '5', '5']])⟩,
    ⟨.bare "gro\\u0075p".toList, .bare "\"Zr\"".toList⟩]

theorem isText_mixedMembers : IsText .zr [1, 255] (objectText [] mixedMembers) := by
  have hdigits (c : Char) (hc : c.isDigit = true) : Digits [c] :=
    ⟨List.cons_ne_nil c [], List.forall_mem_singleton.mpr hc⟩
  have hnumber : ValueText mixedNumber :=
    .number (.parts (by decide) .zero (.digits (hdigits '5' rfl))
      (.digits (.inl rfl) (by decide) (hdigits '1' rfl)))
  have hskipped : ValueText (listText [] [.bare mixedNumber]) :=
    .list (List.forall_mem_nil _) (List.forall_mem_singleton.mpr hnumber)
  have hblank : Blanks [' '] := List.forall_mem_singleton.mpr rfl
  have hletter : UnitText ('u').toNat ['0', '0', '7', '5'] :=
    .digits (m := 0) (n := 0) (k := 7) (l := 5) (.inl rfl) (.inl rfl) (.inl rfl) (.inl rfl)
  have hother : Spells "x".toList ['x'] := spells_flatMap_escapeChar ['x']
  have hname : Spells "group".toList "gro\\u0075p".toList :=
    .plain (c := 'g') (by decide) (.plain (c := 'r') (by decide) (.plain (c := 'o') (by decide)
      (.unit hletter (spells_flatMap_escapeChar ['p']))))
  have hgroup : Group.Names .zr "\"Zr\"".toList := nameText_printString "Zr"
  exact .object (List.forall_mem_nil _)
    (.cons (.other hother (by decide) (by decide) hskipped)
      (.cons (.second (spells_flatMap_escapeChar "bytes".toList)
        (.list hblank (.cons rfl (.cons rfl .nil))))
        (.cons (.first hname hgroup) .nil))) rfl rfl

/-- The generator of the second source group. -/
def generatorG2 : Element coefficientBackend := ⟨.standard _, .g2 G2.generator⟩

/-- A point of the second source group is read back, and not as one of the first. A scalar with too
few bytes is refused for its bytes, and for its group where a target group element is expected. -/
theorem json_form_exact_mixed :
    (∃ e, readJson (.standard coefficientBackend) (some .g2) (generatorG2.toJson.toList ++ [',']) =
        .ok (e, [',']) ∧ e.equal generatorG2 = true ∧ e.group = .g2) ∧
    readJson (.standard coefficientBackend) (some .g1) (generatorG2.toJson.toList ++ [',']) =
      .error (.data (.refused (Error.wrongGroup .g1 .g2).message)) ∧
    readJson (.standard exponentModel) none (objectText [] mixedMembers) =
      .error (.data (.refused (Error.wrongLength .zr 32 2).message)) ∧
    readJson (.standard exponentModel) (some .gt) (objectText [] mixedMembers) =
      .error (.data (.refused (Error.wrongGroup .gt .zr).message)) := by
  obtain ⟨hround, hread, hgroup⟩ := json_form_exact
  have hcurves : coefficientMembership.Supported := .curves .coefficient
  obtain ⟨haccepted, hrefused⟩ := hround hcurves (.standard coefficientBackend)
    generatorG2 G2.member_generator [',']
  obtain ⟨hrefused', haccepted'⟩ := hread (.standard exponentModel) .zr [1, 255]
    (.bare (objectText [] mixedMembers)) isText_mixedMembers []
  rw [Padded.render_bare, List.append_nil] at hrefused' haccepted'
  refine ⟨?_, hrefused .g1 (by decide), haccepted' none (by decide), hrefused' .gt (by decide)⟩
  obtain ⟨e, he, -, -, hequal⟩ := haccepted (some .g2) (by decide)
  exact ⟨e, he, hequal rfl, hgroup _ _ _ _ _ he⟩

end Element

end BilinearGroups
