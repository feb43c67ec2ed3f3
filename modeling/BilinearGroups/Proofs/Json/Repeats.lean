import BilinearGroups.Proofs.Agree
import BilinearGroups.Proofs.Json.Records

/-!
# No name of a record occurs twice

An object where a name of the record occurs twice is refused, whatever the other members are and
whatever the values are. A repeated name is refused before its value is looked at, but only where
the reader gets that far and is not off its track by then. So a reader must fail on a value or stop
right after it (`ReadsToEnd`), also on a value that it is not meant for.

What carries the induction is that a draft keeps the values it holds, and that after a member with a
name of the record it holds the value of this name.
-/

namespace BilinearGroups.Json

variable {α β : Type} {c d : Char} {cs ds ws rest : List Char}

/-! ## Readers that stop after a value -/

/-- The reader fails on a value or reads it to its end. -/
def ReadsToEnd (reader : Reader α) : Prop :=
  ∀ {x : Padded}, ValueText x.text → ∀ {c : Char} {cs : List Char}, c ∈ [',', ']', '}'] →
    ∀ {a : α} {rest : List Char}, reader (x.render ++ c :: cs) = .ok (a, rest) →
      rest = x.after ++ c :: cs

theorem orMalformed_eq_ok_iff {o : Option α} {a : α} : orMalformed o = .ok a ↔ o = some a := by
  cases o <;> simp [orMalformed]

theorem refuse_ne_ok (expected : String) (cs : List Char) (a : α) : refuse expected cs ≠ .ok a := by
  unfold refuse
  split <;> nofun

/-- What follows the closing quote is left. -/
theorem StringText.rest_eq (h : StringText cs) {s : String} {after : List Char}
    (hs : string? (cs ++ '"' :: rest) = some (s, after)) : after = rest := by
  obtain ⟨ps, hps⟩ := h.pieces? rest
  rw [string?, hps] at hs
  cases hcs : characters? ps with
  | none => simp [hcs] at hs
  | some t =>
    simp only [hcs, Option.bind_eq_bind, Option.bind_some, Option.pure_def, Option.some.injEq,
      Prod.mk.injEq] at hs
    exact hs.2.symm

/-! ### What a value is by its first character -/

theorem not_number (hc : c ∈ ['"', '{', 'n']) : ¬NumberText (c :: cs) := by
  intro h
  obtain ⟨d, ds, heq, hd⟩ := h.exists_cons
  obtain ⟨rfl, -⟩ := List.cons.inj heq
  refine not_mem_of_number hd ?_
  simp only [List.mem_cons, List.not_mem_nil, or_false] at hc ⊢
  tauto

theorem ValueText.of_quote (h : ValueText ('"' :: cs)) :
    ∃ ks, StringText ks ∧ cs = ks ++ ['"'] := by
  generalize hv : '"' :: cs = v at h
  cases h with
  | string hks => exact ⟨_, hks, (List.cons.inj hv).2⟩
  | number hnumber => exact absurd (hv ▸ hnumber) (not_number (by decide))
  | null | yes | no | list | object => exact absurd (List.cons.inj hv).1 (by decide)

theorem ValueText.of_brace (h : ValueText ('{' :: cs)) : ∃ ws members, Blanks ws ∧
    (∀ m ∈ members, StringText m.key.text) ∧ (∀ m ∈ members, ValueText m.value.text) ∧
    '{' :: cs = objectText ws members := by
  generalize hv : '{' :: cs = v at h
  cases h with
  | object hws hkeys hvalues => exact ⟨_, _, hws, hkeys, hvalues, rfl⟩
  | number hnumber => exact absurd (hv ▸ hnumber) (not_number (by decide))
  | null | yes | no | string | list => exact absurd (List.cons.inj hv).1 (by decide)

theorem ValueText.of_n (h : ValueText ('n' :: cs)) : cs = ['u', 'l', 'l'] := by
  generalize hv : 'n' :: cs = v at h
  cases h with
  | null => exact (List.cons.inj hv).2
  | number hnumber => exact absurd (hv ▸ hnumber) (not_number (by decide))
  | yes | no | string | list | object => exact absurd (List.cons.inj hv).1 (by decide)

/-! ### The readers -/

theorem readNull_readsToEnd : ReadsToEnd readNull := by
  intro x hx c cs _ _ rest h
  obtain ⟨d, ds, htext, hblank, -, -⟩ := hx.exists_cons
  rw [readNull, Padded.skipBlanks_render htext hblank] at h
  split at h
  · next heq =>
    obtain ⟨rfl, rfl⟩ := List.cons.inj heq
    obtain rfl := (htext ▸ hx).of_n
    cases h
    rfl
  · exact absurd h (refuse_ne_ok _ _ _)

theorem readString_readsToEnd (expected : String) : ReadsToEnd (readString expected) := by
  intro x hx c cs _ s rest h
  obtain ⟨d, ds, htext, hblank, -, -⟩ := hx.exists_cons
  rw [readString, Padded.skipBlanks_render htext hblank] at h
  split at h
  · next heq =>
    obtain ⟨rfl, rfl⟩ := List.cons.inj heq
    obtain ⟨ks, hks, rfl⟩ := (htext ▸ hx).of_quote
    rw [orMalformed_eq_ok_iff, List.append_assoc, List.singleton_append] at h
    exact hks.rest_eq h
  · exact absurd h (refuse_ne_ok _ _ _)

theorem expectChar_eq_ok_iff (hws : Blanks ws) (hd : isBlank d = false) :
    expectChar c (ws ++ d :: cs) = .ok rest ↔ c = d ∧ cs = rest := by
  rw [expectChar, skipBlanks_append_cons hws hd]
  dsimp only
  split_ifs with h <;> simp [h]

theorem readName_readsToEnd (names : List String) : ReadsToEnd (readName names) := by
  intro x hx c cs _ name rest h
  obtain ⟨d, ds, htext, hblank, -, -⟩ := hx.exists_cons
  rw [readName, Padded.skipBlanks_render htext hblank] at h
  split at h
  · next heq =>
    obtain ⟨rfl, rfl⟩ := List.cons.inj heq
    obtain ⟨ks, hks, rfl⟩ := (htext ▸ hx).of_quote
    obtain ⟨⟨s, after⟩, hs, h⟩ := exists_of_bind_eq_ok h
    obtain ⟨-, -, h⟩ := exists_of_bind_eq_ok h
    cases h
    rw [orMalformed_eq_ok_iff, List.append_assoc, List.singleton_append] at hs
    exact hks.rest_eq hs
  · next heq =>
    obtain ⟨rfl, rfl⟩ := List.cons.inj heq
    obtain ⟨ws, members, hws, hkeys, hvalues, hobject⟩ := (htext ▸ hx).of_brace
    obtain rfl := (List.cons.inj hobject).2
    obtain ⟨after, hquote, h⟩ := exists_of_bind_eq_ok h
    obtain ⟨⟨s, after'⟩, hs, h⟩ := exists_of_bind_eq_ok h
    obtain ⟨-, -, h⟩ := exists_of_bind_eq_ok h
    obtain ⟨after'', hcolon, h⟩ := exists_of_bind_eq_ok h
    obtain ⟨⟨⟨⟩, after₃⟩, hnull, h⟩ := exists_of_bind_eq_ok h
    obtain ⟨rest', hend, h⟩ := exists_of_bind_eq_ok h
    cases h
    rw [orMalformed_eq_ok_iff] at hs
    -- There is a member, it is null, and no other one follows.
    cases members with
    | nil =>
      rw [List.append_assoc] at hquote
      exact absurd ((expectChar_eq_ok_iff hws rfl).mp hquote).1 (by decide)
    | cons m ms =>
      obtain ⟨e, es, hes, he⟩ :=
        exists_delimiter (ms.map Member.render) (c := '}') (by simp) (x.after ++ c :: cs)
      have hmember : ws ++ (separated ((m :: ms).map Member.render) ++ ['}']) ++
          (x.after ++ c :: cs) = (ws ++ m.key.before) ++ '"' :: (m.afterQuote ++ e :: es) := by
        rw [← hes, List.map_cons, separated_cons, m.render_eq]
        simp
      rw [hmember] at hquote
      obtain ⟨-, rfl⟩ := (expectChar_eq_ok_iff (hws.append m.key.blanks_before) rfl).mp hquote
      rw [m.afterQuote_append] at hs
      obtain rfl := (hkeys m List.mem_cons_self).rest_eq hs
      obtain ⟨-, rfl⟩ := (expectChar_eq_ok_iff m.key.blanks_after rfl).mp hcolon
      obtain rfl := readNull_readsToEnd (hvalues m List.mem_cons_self) he hnull
      rw [← hes] at hend
      cases ms with
      | nil => exact ((expectChar_eq_ok_iff m.value.blanks_after rfl).mp hend).2.symm
      | cons m' ms =>
        exact absurd ((expectChar_eq_ok_iff m.value.blanks_after rfl).mp hend).1 (by decide)
  · cases h

/-! ## Drafts -/

namespace Record

variable {R : Record α β} {draft draft' : Draft α β} {m : Member} {members : List Member}
variable {name : String} {fuel : ℕ} {after : List Char}

/-- The draft holds the value of a name. -/
def Holds (R : Record α β) (draft : Draft α β) (name : String) : Prop :=
  (name = R.firstName ∧ draft.1.isSome = true) ∨ (name = R.secondName ∧ draft.2.isSome = true)

/-- The names of the record. -/
def names (R : Record α β) : List String := [R.firstName, R.secondName]

/-- A member was read into a draft: what the draft held is kept, and if the name of the member is
one of the record, then its value was not held before and is held now. -/
structure TakesUp (R : Record α β) (draft : Draft α β) (m : Member) (draft' : Draft α β) :
    Prop where
  keeps {name : String} : R.Holds draft name → R.Holds draft' name
  new {name : String} : name ∈ R.names → Spells name.toList m.key.text → ¬R.Holds draft name
  holds {name : String} : name ∈ R.names → Spells name.toList m.key.text → R.Holds draft' name

/-- The members do not have one name of the record. -/
def Distinct (R : Record α β) (m m' : Member) : Prop :=
  ∀ name ∈ R.names, Spells name.toList m.key.text → ¬Spells name.toList m'.key.text

section Members

variable (hfirst : ReadsToEnd R.readFirst) (hsecond : ReadsToEnd R.readSecond)
  (hnames : R.firstName ≠ R.secondName)

include hfirst hsecond hnames

/-- A member that is read at all is read to its end. -/
theorem takesUp_of_readMember (hkey : StringText m.key.text) (hvalue : ValueText m.value.text)
    (hc : c ∈ [',', ']', '}'])
    (h : R.readMember draft (m.afterQuote ++ c :: cs) = .ok (draft', rest)) :
    R.TakesUp draft m draft' ∧ rest = m.value.after ++ c :: cs := by
  obtain ⟨name, hstring⟩ : ∃ name, string? (m.key.text ++ '"' ::
      (m.key.after ++ ':' :: (m.value.render ++ c :: cs))) =
        some (name, m.key.after ++ ':' :: (m.value.render ++ c :: cs)) := by
    rw [readMember, m.afterQuote_append] at h
    obtain ⟨⟨name, after⟩, hstring, -⟩ := exists_of_bind_eq_ok h
    rw [orMalformed_eq_ok_iff] at hstring
    exact ⟨name, hkey.rest_eq hstring ▸ hstring⟩
  -- A string spells one name only, the one that was read.
  have hspells {name' : String} (hname : Spells name'.toList m.key.text) : name' = name := by
    rw [spells_string? hname] at hstring
    exact congrArg Prod.fst (Option.some.inj hstring)
  rw [readMember_of_string? hstring] at h
  split_ifs at h with hone hheld htwo hheld
  · cases h
  · obtain ⟨⟨a, es⟩, hread, heq⟩ := exists_of_map_eq_ok h
    cases heq
    refine ⟨⟨?_, ?_, fun _ hname ↦ .inl ⟨(hspells hname).trans hone, rfl⟩⟩,
      hfirst hvalue hc hread⟩
    · rintro name' (⟨hname, -⟩ | hname)
      · exact .inl ⟨hname, rfl⟩
      · exact .inr hname
    · rintro name' - hname (⟨-, hsome⟩ | ⟨htwo, -⟩)
      · exact hheld hsome
      · exact hnames (hone.symm.trans ((hspells hname).symm.trans htwo))
  · cases h
  · obtain ⟨⟨b, es⟩, hread, heq⟩ := exists_of_map_eq_ok h
    cases heq
    refine ⟨⟨?_, ?_, fun _ hname ↦ .inr ⟨(hspells hname).trans htwo, rfl⟩⟩,
      hsecond hvalue hc hread⟩
    · rintro name' (hname | ⟨hname, -⟩)
      · exact .inl hname
      · exact .inr ⟨hname, rfl⟩
    · rintro name' - hname (⟨hone', -⟩ | ⟨-, hsome⟩)
      · exact hone ((hspells hname).symm.trans hone')
      · exact hheld hsome
  · obtain ⟨es, hskip, heq⟩ := exists_of_map_eq_ok h
    cases heq
    rw [orMalformed_eq_ok_iff, hvalue.skip? hc] at hskip
    have hother {name' : String} (hmem : name' ∈ R.names) :
        ¬Spells name'.toList m.key.text := by
      intro hname
      obtain rfl := hspells hname
      simp [names, hone, htwo] at hmem
    exact ⟨⟨id, fun hmem hname ↦ absurd hname (hother hmem),
      fun hmem hname ↦ absurd hname (hother hmem)⟩, (Option.some.inj hskip).symm⟩

/-- The members that are read after a draft have names that it does not hold, and that are not
repeated among them. -/
theorem distinct_of_readMembers {y : Draft α β × List Char}
    (hkeys : ∀ m ∈ members, StringText m.key.text)
    (hvalues : ∀ m ∈ members, ValueText m.value.text) (hws : Blanks ws)
    (h : R.readMembers fuel false draft
      (ws ++ ((members.map Member.render).flatMap (',' :: ·) ++ '}' :: rest)) = .ok y) :
    (∀ m ∈ members, ∀ name ∈ R.names, Spells name.toList m.key.text → ¬R.Holds draft name) ∧
      members.Pairwise R.Distinct := by
  induction members generalizing draft ws fuel with
  | nil => exact ⟨List.forall_mem_nil _, .nil⟩
  | cons m members ih =>
    cases fuel with
    | zero => cases h
    | succ fuel =>
      rw [List.forall_mem_cons] at hkeys hvalues
      obtain ⟨c, cs, hcs, hc⟩ :=
        exists_delimiter (members.map Member.render) (c := '}') (by simp) rest
      rw [List.map_cons, List.flatMap_cons, List.cons_append, List.cons_append, List.append_assoc,
        readMembers_next hws, hcs] at h
      obtain ⟨⟨draft', after⟩, hmember, h⟩ := exists_of_bind_eq_ok h
      obtain ⟨htakes, rfl⟩ :=
        takesUp_of_readMember hfirst hsecond hnames hkeys.1 hvalues.1 hc hmember
      rw [← hcs] at h
      obtain ⟨hnew, hdistinct⟩ := ih hkeys.2 hvalues.2 m.value.blanks_after h
      refine ⟨List.forall_mem_cons.mpr ⟨fun _ ↦ htakes.new, ?_⟩, .cons ?_ hdistinct⟩
      · exact fun m' hm' name hmem hname hholds ↦ hnew m' hm' name hmem hname (htakes.keeps hholds)
      · exact fun m' hm' name hmem hname hname' ↦
          hnew m' hm' name hmem hname' (htakes.holds hmem hname)

/-- Where an object is read, no two members have one name of the record. -/
theorem distinct_of_read {x : Padded} {y : (α × β) × List Char}
    (htext : x.text = objectText ws members) (hws : Blanks ws)
    (hkeys : ∀ m ∈ members, StringText m.key.text)
    (hvalues : ∀ m ∈ members, ValueText m.value.text) (rest : List Char)
    (h : R.read (x.render ++ rest) = .ok y) : members.Pairwise R.Distinct := by
  rw [read, Padded.skipBlanks_render htext rfl] at h
  obtain ⟨z, h, -⟩ := exists_of_bind_eq_ok h
  cases members with
  | nil => exact .nil
  | cons m members =>
    have happend : ws ++ (separated ((m :: members).map Member.render) ++ ['}']) ++
        (x.after ++ rest) = ws ++ (m.render ++ ((members.map Member.render).flatMap (',' :: ·) ++
          '}' :: (x.after ++ rest))) := by
      rw [List.map_cons, separated_cons]
      simp
    rw [List.forall_mem_cons] at hkeys hvalues
    obtain ⟨c, cs, hcs, hc⟩ :=
      exists_delimiter (members.map Member.render) (c := '}') (by simp) (x.after ++ rest)
    rw [happend, readMembers_first hws, hcs] at h
    obtain ⟨⟨draft, after⟩, hmember, h⟩ := exists_of_bind_eq_ok h
    obtain ⟨htakes, rfl⟩ :=
      takesUp_of_readMember hfirst hsecond hnames hkeys.1 hvalues.1 hc hmember
    rw [← hcs] at h
    obtain ⟨hnew, hdistinct⟩ :=
      distinct_of_readMembers hfirst hsecond hnames hkeys.2 hvalues.2 m.value.blanks_after h
    exact .cons (fun m' hm' name hmem hname hname' ↦
      hnew m' hm' name hmem hname' (htakes.holds hmem hname)) hdistinct

end Members

end Record

end BilinearGroups.Json
