import Mathlib.Data.List.Forall2
import BilinearGroups.Proofs.Json.Readers

/-!
# Records are read

A record is written as an object whose members hold the two values under their names, or as a list
of the two values. In an object the members may come in any order and among others, as long as the
others have other names and values that follow the grammar.

Reading goes through the members with a draft of the values found so far. What carries the induction
is that the draft and the members to come hold at most one first and one second value together.
-/

namespace BilinearGroups.Json

variable {α β : Type}

/-- What a member holds for a record. -/
inductive Content (α β : Type) where
  /-- The first value. -/
  | first (a : α)
  /-- The second value. -/
  | second (b : β)
  /-- Something else. -/
  | other

/-- The first value in a member. -/
def Content.first? : Content α β → Option α
  | first a => some a
  | second _ | other => none

/-- The second value in a member. -/
def Content.second? : Content α β → Option β
  | second b => some b
  | first _ | other => none

namespace Record

variable (R : Record α β) (First : α → List Char → Prop) (Second : β → List Char → Prop)

/-- The member holds the content, its values being written in given forms. -/
inductive MemberText : Member → Content α β → Prop
  /-- The name is that of the first value. -/
  | first {m : Member} {a : α} : Spells R.firstName.toList m.key.text → First a m.value.text →
    MemberText m (.first a)
  /-- The name is that of the second value. -/
  | second {m : Member} {b : β} : Spells R.secondName.toList m.key.text → Second b m.value.text →
    MemberText m (.second b)
  /-- The name is another one. -/
  | other {m : Member} {name : String} : Spells name.toList m.key.text → name ≠ R.firstName →
    name ≠ R.secondName → ValueText m.value.text → MemberText m .other

/-- The text is that of a record with two given values. -/
inductive Text (a : α) (b : β) : List Char → Prop
  /-- The members of an object hold each value once. -/
  | object {ws : List Char} {members : List Member} {contents : List (Content α β)} : Blanks ws →
    List.Forall₂ (R.MemberText First Second) members contents →
    contents.filterMap Content.first? = [a] → contents.filterMap Content.second? = [b] →
    Text a b (objectText ws members)
  /-- The values are the two items of a list. -/
  | list {ws : List Char} {x y : Padded} : Blanks ws → First a x.text → Second b y.text →
    Text a b (listText ws [x, y])

variable {R First Second}

/-! ## Members -/

/-- The draft together with what a member holds. -/
def extend (draft : Draft α β) : Content α β → Draft α β
  | .first a => (some a, draft.2)
  | .second b => (draft.1, some b)
  | .other => draft

section Members

variable (hfirst : Reads R.readFirst First) (hsecond : Reads R.readSecond Second)
  (hnames : R.firstName ≠ R.secondName) {m : Member} {content : Content α β} {draft : Draft α β}
  {c : Char} {ws cs rest : List Char} {fuel : ℕ}

/-- What reading a member does with its value depends on its name and on the draft. -/
theorem readMember_of_string? {name : String}
    (hname : string? (m.key.text ++ '"' :: (m.key.after ++ ':' :: (m.value.render ++ rest))) =
      some (name, m.key.after ++ ':' :: (m.value.render ++ rest))) :
    R.readMember draft (m.afterQuote ++ rest) =
      if name = R.firstName then
        if draft.1.isSome then fail (.duplicateField name)
        else (R.readFirst (m.value.render ++ rest)).map fun x ↦ ((some x.1, draft.2), x.2)
      else if name = R.secondName then
        if draft.2.isSome then fail (.duplicateField name)
        else (R.readSecond (m.value.render ++ rest)).map fun x ↦ ((draft.1, some x.1), x.2)
      else (orMalformed (skip? (m.value.render ++ rest))).map (draft, ·) := by
  have hcolon : expectChar ':' (m.key.after ++ ':' :: (m.value.render ++ rest)) =
      .ok (m.value.render ++ rest) := expectChar_append_cons m.key.blanks_after rfl _
  rw [readMember, m.afterQuote_append, hname]
  simp only [orMalformed, bind, Except.bind, hcolon]
  split_ifs
  · rfl
  · cases R.readFirst (m.value.render ++ rest) <;> rfl
  · rfl
  · cases R.readSecond (m.value.render ++ rest) <;> rfl
  · cases skip? (m.value.render ++ rest) <;> rfl

include hfirst hsecond hnames in
/-- A member is read into a draft that does not hold the same value yet. -/
theorem readMember_eq (h : R.MemberText First Second m content)
    (hdraft : content.first?.isSome = true → draft.1 = none)
    (hdraft' : content.second?.isSome = true → draft.2 = none) (hc : c ∈ [',', ']', '}'])
    (cs : List Char) : R.readMember draft (m.afterQuote ++ c :: cs) =
      .ok (extend draft content, m.value.after ++ c :: cs) := by
  -- A second value of the same name would be refused, so the draft must not hold one.
  cases h with
  | first hname hvalue =>
    rw [readMember_of_string? (spells_string? hname _), if_pos rfl, hdraft rfl, hfirst.read hvalue]
    rfl
  | second hname hvalue =>
    rw [readMember_of_string? (spells_string? hname _), if_neg hnames.symm, if_pos rfl,
      hdraft' rfl, hsecond.read hvalue]
    rfl
  | other hname hne hne' hvalue =>
    rw [readMember_of_string? (spells_string? hname _), if_neg hne, if_neg hne', hvalue.skip? hc]
    rfl

theorem readMembers_end (first : Bool) (h : skipBlanks cs = '}' :: rest) :
    R.readMembers (fuel + 1) first draft cs = .ok (draft, rest) := by
  simp only [readMembers, h]

theorem readMembers_first (hws : Blanks ws) (rest : List Char) :
    R.readMembers (fuel + 1) true draft (ws ++ (m.render ++ rest)) =
      R.readMember draft (m.afterQuote ++ rest) >>= fun x ↦ R.readMembers fuel false x.1 x.2 := by
  have hquote : skipBlanks (ws ++ (m.render ++ rest)) = '"' :: (m.afterQuote ++ rest) := by
    rw [m.render_eq, List.append_assoc, List.cons_append, ← List.append_assoc]
    exact skipBlanks_append_cons (hws.append m.key.blanks_before) rfl _
  have hexpect : expectChar '"' ('"' :: (m.afterQuote ++ rest)) = .ok (m.afterQuote ++ rest) := rfl
  rw [readMembers, hquote]
  split
  · next heq => exact absurd (List.cons.inj heq).1 (by decide)
  · simp only [if_true, pure, Except.pure, bind, Except.bind, hexpect]

theorem readMembers_next (hws : Blanks ws) (rest : List Char) :
    R.readMembers (fuel + 1) false draft (ws ++ ',' :: (m.render ++ rest)) =
      R.readMember draft (m.afterQuote ++ rest) >>= fun x ↦ R.readMembers fuel false x.1 x.2 := by
  have hcomma : expectChar ',' (',' :: (m.render ++ rest)) = .ok (m.render ++ rest) := rfl
  have hquote : expectChar '"' (m.render ++ rest) = .ok (m.afterQuote ++ rest) := by
    rw [m.render_eq, List.append_assoc, List.cons_append]
    exact expectChar_append_cons m.key.blanks_before rfl _
  rw [readMembers, skipBlanks_append_cons hws rfl]
  split
  · next heq => exact absurd (List.cons.inj heq).1 (by decide)
  · simp only [Bool.false_eq_true, if_false, bind, Except.bind, hcomma, hquote]

/-- As long as at most one first value is left, the draft does not hold one when it comes. -/
theorem extend_first {contents : List (Content α β)} {a? : Option α}
    (h : draft.1.toList ++ (content :: contents).filterMap Content.first? = a?.toList) :
    (content.first?.isSome = true → draft.1 = none) ∧
      (extend draft content).1.toList ++ contents.filterMap Content.first? = a?.toList := by
  cases content with
  | second | other => exact ⟨nofun, h⟩
  | first a =>
    obtain ⟨first?, second?⟩ := draft
    cases first? with
    | none => exact ⟨fun _ ↦ rfl, h⟩
    | some b => cases a? <;> simp [Content.first?] at h

theorem extend_second {contents : List (Content α β)} {b? : Option β}
    (h : draft.2.toList ++ (content :: contents).filterMap Content.second? = b?.toList) :
    (content.second?.isSome = true → draft.2 = none) ∧
      (extend draft content).2.toList ++ contents.filterMap Content.second? = b?.toList := by
  cases content with
  | first | other => exact ⟨nofun, h⟩
  | second b =>
    obtain ⟨first?, second?⟩ := draft
    cases second? with
    | none => exact ⟨fun _ ↦ rfl, h⟩
    | some a => cases b? <;> simp [Content.second?] at h

theorem toList_injective {γ : Type} {o o' : Option γ} (h : o.toList = o'.toList) : o = o' := by
  cases o <;> cases o' <;> simp_all

include hfirst hsecond hnames in
/-- The members that are left are read, and end with the values of the record. -/
theorem readMembers_rest {members : List Member} {contents : List (Content α β)}
    (h : List.Forall₂ (R.MemberText First Second) members contents) {a? : Option α} {b? : Option β}
    (ha : draft.1.toList ++ contents.filterMap Content.first? = a?.toList)
    (hb : draft.2.toList ++ contents.filterMap Content.second? = b?.toList)
    (hfuel : members.length < fuel) (hws : Blanks ws) (rest : List Char) :
    R.readMembers fuel false draft
        (ws ++ ((members.map Member.render).flatMap (',' :: ·) ++ '}' :: rest)) =
      .ok ((a?, b?), rest) := by
  obtain ⟨fuel, rfl⟩ := Nat.exists_eq_add_one.mpr (Nat.zero_lt_of_lt hfuel)
  -- What a member holds goes from the contents into the draft, so the sums stay the same.
  induction h generalizing draft ws fuel with
  | nil =>
    have hdraft : draft = (a?, b?) := by
      rw [List.filterMap_nil, List.append_nil] at ha hb
      exact Prod.ext (toList_injective ha) (toList_injective hb)
    rw [← hdraft]
    exact readMembers_end false (skipBlanks_append_cons hws rfl rest)
  | @cons m content members contents hm _ ih =>
    obtain ⟨hdraft, ha⟩ := extend_first ha
    obtain ⟨hdraft', hb⟩ := extend_second hb
    obtain ⟨c, cs, hcs, hc⟩ :=
      exists_delimiter (members.map Member.render) (c := '}') (by simp) rest
    have hmember := readMember_eq hfirst hsecond hnames hm hdraft hdraft' hc cs
    rw [← hcs] at hmember
    rw [List.map_cons, List.flatMap_cons, List.cons_append, List.cons_append, List.append_assoc,
      readMembers_next hws, hmember]
    rw [List.length_cons] at hfuel
    obtain ⟨fuel, rfl⟩ : ∃ k, fuel = k + 1 := Nat.exists_eq_add_one.mpr (by omega)
    exact ih ha hb m.value.blanks_after fuel (by omega)

theorem length_le_separated (xs : List (List Char)) : xs.length ≤ (separated xs).length + 1 := by
  cases xs with
  | nil => exact Nat.zero_le _
  | cons x xs =>
    have hlength := length_le_flatMap xs
    rw [separated_cons, List.length_append, List.length_cons]
    omega

include hfirst hsecond hnames in
theorem readMembers_separated {members : List Member} {contents : List (Content α β)}
    (h : List.Forall₂ (R.MemberText First Second) members contents) {a? : Option α} {b? : Option β}
    (ha : contents.filterMap Content.first? = a?.toList)
    (hb : contents.filterMap Content.second? = b?.toList) (hfuel : members.length < fuel)
    (hws : Blanks ws) (rest : List Char) : R.readMembers fuel true (none, none)
        (ws ++ (separated (members.map Member.render) ++ '}' :: rest)) = .ok ((a?, b?), rest) := by
  obtain ⟨fuel, rfl⟩ := Nat.exists_eq_add_one.mpr (Nat.zero_lt_of_lt hfuel)
  cases h with
  | nil =>
    obtain rfl : none = a? := toList_injective ha
    obtain rfl : none = b? := toList_injective hb
    exact readMembers_end true (skipBlanks_append_cons hws rfl rest)
  | @cons m content members contents hm h =>
    have hfirsts : ((none, none) : Draft α β).1.toList ++
        (content :: contents).filterMap Content.first? = a?.toList := ha
    have hseconds : ((none, none) : Draft α β).2.toList ++
        (content :: contents).filterMap Content.second? = b?.toList := hb
    obtain ⟨hdraft, ha⟩ := extend_first hfirsts
    obtain ⟨hdraft', hb⟩ := extend_second hseconds
    obtain ⟨c, cs, hcs, hc⟩ :=
      exists_delimiter (members.map Member.render) (c := '}') (by simp) rest
    have hmember := readMember_eq hfirst hsecond hnames hm hdraft hdraft' hc cs
    rw [← hcs] at hmember
    rw [List.map_cons, separated_cons, List.append_assoc, readMembers_first hws, hmember]
    exact readMembers_rest hfirst hsecond hnames h ha hb (by rw [List.length_cons] at hfuel; omega)
      m.value.blanks_after rest

include hfirst hsecond hnames in
/-- An object is read as the values that its members hold. -/
theorem read_object {members : List Member} {contents : List (Content α β)} {x : Padded}
    (htext : x.text = objectText ws members) (hws : Blanks ws)
    (h : List.Forall₂ (R.MemberText First Second) members contents) {a? : Option α} {b? : Option β}
    (ha : contents.filterMap Content.first? = a?.toList)
    (hb : contents.filterMap Content.second? = b?.toList) (rest : List Char) :
    R.read (x.render ++ rest) = (R.complete (a?, b?)).map (·, x.after ++ rest) := by
  have happend : ws ++ (separated (members.map Member.render) ++ ['}']) ++ (x.after ++ rest) =
      ws ++ (separated (members.map Member.render) ++ '}' :: (x.after ++ rest)) := by simp
  have hlength := length_le_separated (members.map Member.render)
  have hmembers : R.readMembers
      ((ws ++ (separated (members.map Member.render) ++ '}' :: (x.after ++ rest))).length + 1) true
      (none, none) (ws ++ (separated (members.map Member.render) ++ '}' :: (x.after ++ rest))) =
        .ok ((a?, b?), x.after ++ rest) := by
    refine readMembers_separated hfirst hsecond hnames h ha hb ?_ hws (x.after ++ rest)
    rw [List.length_map] at hlength
    simp only [List.length_append, List.length_cons]
    omega
  rw [read, Padded.skipBlanks_render htext rfl, happend]
  simp only [hmembers, bind, Except.bind]
  cases R.complete (a?, b?) <;> rfl

end Members

/-! ## Lists -/

section Lists

variable {a : α} {b : β} {x y z : Padded} {ws : List Char}

theorem readListRest_append (hsecond : Reads R.readSecond Second) (hws : Blanks ws)
    (hy : Second b y.text) (a : α) (rest : List Char) :
    R.readListRest a (ws ++ ',' :: (y.render ++ ']' :: rest)) = .ok ((a, b), rest) := by
  obtain ⟨d, ds, hstart, hd⟩ := hsecond.skipBlanks_render hy (']' :: rest)
  have hcomma : expectChar ',' (',' :: (y.render ++ ']' :: rest)) = .ok (y.render ++ ']' :: rest) :=
    rfl
  have hhead : ¬ (d :: ds).head? = some ']' := fun h ↦ hd (Option.some.inj h)
  have hend : expectChar ']' (y.after ++ ']' :: rest) = .ok rest :=
    expectChar_append_cons y.blanks_after rfl rest
  rw [readListRest, skipBlanks_append_cons hws rfl]
  split
  · next heq => exact absurd (List.cons.inj heq).1 (by decide)
  · simp only [bind, Except.bind, hcomma, hstart, if_neg hhead, hsecond.read hy, hend]
    rfl

/-- A list is read as its two items. -/
theorem read_list (hfirst : Reads R.readFirst First) (hsecond : Reads R.readSecond Second)
    (htext : z.text = listText ws [x, y]) (hws : Blanks ws) (hx : First a x.text)
    (hy : Second b y.text) (rest : List Char) :
    R.read (z.render ++ rest) = .ok ((a, b), z.after ++ rest) := by
  have happend : ws ++ (separated ([x, y].map Padded.render) ++ [']']) ++ (z.after ++ rest) =
      (x.indent hws).render ++ ',' :: (y.render ++ ']' :: (z.after ++ rest)) := by
    simp [separated, Padded.render_indent]
  have hread := hfirst.read_skipBlanks (x := x.indent hws) hx
    (',' :: (y.render ++ ']' :: (z.after ++ rest)))
  obtain ⟨d, ds, hstart, hd⟩ := hfirst.skipBlanks_render (x := x.indent hws) hx
    (',' :: (y.render ++ ']' :: (z.after ++ rest)))
  rw [hstart] at hread
  rw [read, Padded.skipBlanks_render htext rfl, happend]
  simp only [readList, hstart]
  split
  · next heq => exact absurd (List.cons.inj heq).1 hd
  · simp only [hread, bind, Except.bind]
    exact readListRest_append hsecond (x.indent hws).blanks_after hy a (z.after ++ rest)

end Lists

/-- A record is read as its two values. -/
theorem Text.read (hfirst : Reads R.readFirst First) (hsecond : Reads R.readSecond Second)
    (hnames : R.firstName ≠ R.secondName) {a : α} {b : β} {x : Padded}
    (h : R.Text First Second a b x.text) (rest : List Char) :
    R.read (x.render ++ rest) = .ok ((a, b), x.after ++ rest) := by
  generalize htext : x.text = text at h
  cases h with
  | object hws hmembers ha hb =>
    have hfirsts : _ = (some a).toList := ha
    have hseconds : _ = (some b).toList := hb
    rw [read_object hfirst hsecond hnames htext hws hmembers hfirsts hseconds]
    rfl
  | list hws hx hy => exact read_list hfirst hsecond htext hws hx hy rest

/-! ## Writing -/

/-- A member that is written without blanks. -/
def writtenMember (name : String) (value : List Char) : Member :=
  ⟨.bare (name.toList.flatMap escapeChar), .bare value⟩

/-- A record is written as one of its texts. -/
theorem text_printRecord {a : α} {b : β} {first second : List Char} (hfirst : First a first)
    (hsecond : Second b second) :
    R.Text First Second a b (printRecord R.firstName first R.secondName second).toList := by
  have hprint : (printRecord R.firstName first R.secondName second).toList =
      objectText [] [writtenMember R.firstName first, writtenMember R.secondName second] := by
    simp [printRecord, printString, objectText, writtenMember, Member.render, Padded.render,
      Padded.bare, separated]
  rw [hprint]
  exact .object (List.forall_mem_nil _) (.cons (.first (spells_flatMap_escapeChar _) hfirst)
    (.cons (.second (spells_flatMap_escapeChar _) hsecond) .nil)) rfl rfl

end Record

/-- A name is written as one of its texts. -/
theorem nameText_printString (name : String) : NameText name (printString name) :=
  .string (spells_flatMap_escapeChar name.toList)

/-- A string is written as one of its texts. -/
theorem quotedText_printString (s : String) : QuotedText s (printString s) :=
  .quotes (spells_flatMap_escapeChar s.toList)

/-- A list of bytes is written as one of its texts. -/
theorem bytesText_printBytes (bs : Bytes) : BytesText bs (printBytes bs) := by
  have hprint : printBytes bs =
      listText [] (bs.map fun b ↦ Padded.bare (Nat.toDigits 10 b.toNat)) := by
    simp [printBytes, listText, Padded.render, Padded.bare, Function.comp_def]
  rw [hprint]
  refine .list (List.forall_mem_nil _) ?_
  rw [List.forall₂_map_right_iff]
  exact List.forall₂_same.mpr fun _ _ ↦ rfl

end BilinearGroups.Json
