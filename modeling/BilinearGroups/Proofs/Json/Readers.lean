import BilinearGroups.Json.Reader
import BilinearGroups.Proofs.Json.Skipping

/-!
# Names, strings and lists of bytes are read

A reader reads a form of texts if it reads each of them with any blanks before it and anything after
it. Names are read from a string that spells them, however it is written, and from an object whose
only member has the name and is null. Other strings are only read as strings. A list of bytes is
read from the decimal digits of the bytes.
-/

namespace BilinearGroups.Json

variable {α : Type} {c : Char} {cs ws rest : List Char}

/-- The reader reads the values of texts, with blanks before them, and leaves what follows. -/
structure Reads (reader : Reader α) (Form : α → List Char → Prop) : Prop where
  read {a : α} {x : Padded} : Form a x.text → ∀ rest,
    reader (x.render ++ rest) = .ok (a, x.after ++ rest)
  starts {a : α} {cs : List Char} : Form a cs → ∃ d ds, cs = d :: ds ∧ isBlank d = false ∧ d ≠ ']'

/-- The text with more blanks before it. -/
def Padded.indent (x : Padded) (hws : Blanks ws) : Padded where
  before := ws ++ x.before
  text := x.text
  after := x.after
  blanks_before := List.forall_mem_append.mpr ⟨hws, x.blanks_before⟩
  blanks_after := x.blanks_after

theorem Padded.render_indent (x : Padded) (hws : Blanks ws) :
    (x.indent hws).render = ws ++ x.render := List.append_assoc ..

theorem Padded.skipBlanks_render {x : Padded} (htext : x.text = c :: cs) (hc : isBlank c = false)
    (rest : List Char) : skipBlanks (x.render ++ rest) = c :: (cs ++ (x.after ++ rest)) := by
  rw [Padded.render, htext]
  simp only [List.append_assoc, List.cons_append]
  exact skipBlanks_append_cons x.blanks_before hc _

theorem Reads.skipBlanks_render {reader : Reader α} {Form : α → List Char → Prop}
    (h : Reads reader Form) {a : α} {x : Padded} (hx : Form a x.text) (rest : List Char) :
    ∃ d ds, skipBlanks (x.render ++ rest) = d :: ds ∧ d ≠ ']' := by
  obtain ⟨d, ds, htext, hblank, hd⟩ := h.starts hx
  exact ⟨d, _, Padded.skipBlanks_render htext hblank rest, hd⟩

/-- Readers are also given texts without the blanks before them. -/
theorem Reads.read_skipBlanks {reader : Reader α} {Form : α → List Char → Prop}
    (h : Reads reader Form) {a : α} {x : Padded} (hx : Form a x.text) (rest : List Char) :
    reader (skipBlanks (x.render ++ rest)) = .ok (a, x.after ++ rest) := by
  obtain ⟨d, ds, htext, hblank, -⟩ := h.starts hx
  let y : Padded := ⟨[], x.text, x.after, List.forall_mem_nil _, x.blanks_after⟩
  have hrender : skipBlanks (x.render ++ rest) = y.render ++ rest := by
    rw [Padded.skipBlanks_render htext hblank, Padded.render, htext]
    simp [y]
  rw [hrender]
  exact h.read (x := y) hx rest

theorem expectChar_append_cons (hws : Blanks ws) (hc : isBlank c = false) (cs : List Char) :
    expectChar c (ws ++ c :: cs) = .ok cs := by
  rw [expectChar, skipBlanks_append_cons hws hc]
  exact if_pos rfl

theorem length_le_flatMap (xs : List (List Char)) :
    xs.length ≤ (xs.flatMap (',' :: ·)).length := by
  induction xs with
  | nil => exact Nat.le_refl 0
  | cons x xs ih =>
    rw [List.flatMap_cons, List.length_append, List.length_cons, List.length_cons]
    omega

/-- Other items and the end come after a delimiter. -/
theorem exists_delimiter (xs : List (List Char)) (hc : c ∈ [',', ']', '}']) (rest : List Char) :
    ∃ d ds, xs.flatMap (',' :: ·) ++ c :: rest = d :: ds ∧ d ∈ [',', ']', '}'] := by
  cases xs with
  | nil => exact ⟨c, rest, rfl, hc⟩
  | cons x xs => exact ⟨',', _, rfl, List.mem_cons_self⟩

theorem spells_string? {name : String} (h : Spells name.toList cs) (rest : List Char) :
    string? (cs ++ '"' :: rest) = some (name, rest) := by
  rw [h.string?, String.ofList_toList]

/-! ## Names -/

/-- A name is written as a string, or as the name of a member that is null. -/
inductive NameText (name : String) : List Char → Prop
  /-- The name is a string. -/
  | string {cs : List Char} : Spells name.toList cs → NameText name ('"' :: (cs ++ ['"']))
  /-- The name is that of the only member of an object, which is null. -/
  | object {ws : List Char} {m : Member} : Blanks ws → Spells name.toList m.key.text →
    m.value.text = ['n', 'u', 'l', 'l'] → NameText name (objectText ws [m])

theorem readNull_render {x : Padded} (hx : x.text = ['n', 'u', 'l', 'l']) (rest : List Char) :
    readNull (x.render ++ rest) = .ok ((), x.after ++ rest) := by
  rw [readNull, Padded.skipBlanks_render hx rfl]
  rfl

/-- The text of a member after the opening quote of its name. -/
def Member.afterQuote (m : Member) : List Char :=
  m.key.text ++ '"' :: (m.key.after ++ ':' :: m.value.render)

theorem Member.render_eq (m : Member) : m.render = m.key.before ++ '"' :: m.afterQuote := rfl

theorem Member.afterQuote_append (m : Member) (rest : List Char) : m.afterQuote ++ rest =
    m.key.text ++ '"' :: (m.key.after ++ ':' :: (m.value.render ++ rest)) := by
  simp [afterQuote]

theorem Blanks.append {vs : List Char} (hws : Blanks ws) (hvs : Blanks vs) : Blanks (ws ++ vs) :=
  List.forall_mem_append.mpr ⟨hws, hvs⟩

theorem readName_string {names : List String} {name : String} (hname : name ∈ names)
    {ds : List Char} (hquote : skipBlanks cs = '"' :: ds)
    (hstring : string? ds = some (name, rest)) : readName names cs = .ok (name, rest) := by
  have hcheck : checkName names name = .ok () := if_pos hname
  simp only [readName, hquote, hstring, orMalformed, bind, Except.bind, hcheck]
  rfl

theorem readName_object {names : List String} {name : String} (hname : name ∈ names)
    {ds ks vs es after : List Char} (hbrace : skipBlanks cs = '{' :: ds)
    (hquote : expectChar '"' ds = .ok ks) (hstring : string? ks = some (name, vs))
    (hcolon : expectChar ':' vs = .ok es) (hnull : readNull es = .ok ((), after))
    (hend : expectChar '}' after = .ok rest) : readName names cs = .ok (name, rest) := by
  have hcheck : checkName names name = .ok () := if_pos hname
  simp only [readName, hbrace, hquote, hstring, orMalformed, hcheck, bind, Except.bind, hcolon,
    hnull, hend]
  rfl

theorem readName_nameText {names : List String} {name : String} (hname : name ∈ names) {x : Padded}
    (hx : NameText name x.text) (rest : List Char) :
    readName names (x.render ++ rest) = .ok (name, x.after ++ rest) := by
  generalize htext : x.text = text at hx
  cases hx with
  | string hspells =>
    refine readName_string hname (Padded.skipBlanks_render htext rfl _) ?_
    rw [List.append_assoc, List.singleton_append]
    exact spells_string? hspells _
  | @object ws m hws hspells hnull =>
    have hmember : ws ++ (separated ([m].map Member.render) ++ ['}']) ++ (x.after ++ rest) =
        (ws ++ m.key.before) ++ '"' :: (m.key.text ++ '"' :: (m.key.after ++ ':' ::
          (m.value.render ++ '}' :: (x.after ++ rest)))) := by
      simp [separated, Member.render]
    refine readName_object hname (Padded.skipBlanks_render htext rfl _) ?_
      (spells_string? hspells _) (expectChar_append_cons m.key.blanks_after rfl _)
      (readNull_render hnull _) (expectChar_append_cons m.value.blanks_after rfl _)
    rw [hmember]
    exact expectChar_append_cons (hws.append m.key.blanks_before) rfl _

theorem NameText.starts {name : String} (h : NameText name cs) :
    ∃ d ds, cs = d :: ds ∧ isBlank d = false ∧ d ≠ ']' := by
  cases h with
  | string | object => exact ⟨_, _, rfl, rfl, by decide⟩

/-! ## Strings -/

/-- A string is written between quotes. -/
inductive QuotedText (s : String) : List Char → Prop
  /-- The text between the quotes spells the string. -/
  | quotes {cs : List Char} : Spells s.toList cs → QuotedText s ('"' :: (cs ++ ['"']))

theorem reads_quotedText (expected : String) : Reads (readString expected) QuotedText where
  read {s x} hx rest := by
    generalize htext : x.text = text at hx
    obtain @⟨cs, hspells⟩ := hx
    rw [readString, Padded.skipBlanks_render htext rfl, List.append_assoc, List.singleton_append]
    exact congrArg orMalformed (spells_string? hspells _)
  starts h := by
    cases h
    exact ⟨_, _, rfl, rfl, by decide⟩

/-! ## Lists of bytes -/

/-- A list of bytes is written as a list of their decimal digits. -/
inductive BytesText : Bytes → List Char → Prop
  /-- The items of the list are the bytes. -/
  | list {ws : List Char} {bs : Bytes} {items : List Padded} : Blanks ws →
    List.Forall₂ (fun b x ↦ x.text = Nat.toDigits 10 b.toNat) bs items →
    BytesText bs (listText ws items)

theorem toDigits_lt : ∀ n < 256,
    (Nat.toDigits 10 n = ['0'] ∨ (Nat.toDigits 10 n).head? ≠ some '0' ∧ Nat.toDigits 10 n ≠ [] ∧
      (Nat.toDigits 10 n).all Char.isDigit = true) ∧
    (Number.collect 0 0 ((Nat.toDigits 10 n).map Number.digitValue)).1 = n ∧
    (Number.collect 0 0 ((Nat.toDigits 10 n).map Number.digitValue)).2.2 = 0 := by
  decide +kernel

theorem wholeText_byte (b : UInt8) : WholeText (Nat.toDigits 10 b.toNat) := by
  obtain ⟨hzero | ⟨hhead, hne, hdigits⟩, -⟩ := toDigits_lt b.toNat b.toNat_lt
  · rw [hzero]
    exact .zero
  · obtain ⟨c, cs, hcs⟩ := List.exists_cons_of_ne_nil hne
    rw [hcs] at hhead hdigits ⊢
    exact .digits (fun h ↦ hhead (congrArg some h))
      ⟨List.cons_ne_nil c cs, List.all_eq_true.mp hdigits⟩

theorem value?_byte (b : UInt8) :
    Number.value? ⟨false, (Nat.toDigits 10 b.toNat).map Number.digitValue, [], false, false, []⟩ =
      some (.integer b.toNat) := by
  obtain ⟨-, hvalue, hleft⟩ := toDigits_lt b.toNat b.toNat_lt
  simp only [Number.value?, hvalue, hleft]
  rfl

theorem readByte_skipBlanks (cs : List Char) : readByte (skipBlanks cs) = readByte cs := by
  rw [readByte, readByte, skipBlanks_skipBlanks]

theorem isBlank_of_isDigit (h : c.isDigit = true) : isBlank c = false := by
  have hne := not_mem_of_number (.inr h)
  simp only [List.mem_cons, List.not_mem_nil, or_false, not_or] at hne
  simp [isBlank, hne]

theorem readByte_render {b : UInt8} {x : Padded} (hx : x.text = Nat.toDigits 10 b.toNat)
    (hc : c ∈ [',', ']', '}']) (cs : List Char) :
    readByte (x.render ++ c :: cs) = .ok (b, x.after ++ c :: cs) := by
  obtain ⟨d, ds, hds, hdigit⟩ := (wholeText_byte b).exists_cons
  have hread := (wholeText_byte b).read? (x.delimited hc cs)
  have hvalue := value?_byte b
  have hbyte : 0 ≤ (b.toNat : Int) ∧ (b.toNat : Int) < 256 := by
    have := b.toNat_lt
    omega
  rw [hds, List.cons_append] at hread
  rw [hds] at hvalue
  rw [readByte, Padded.skipBlanks_render (hx.trans hds) (isBlank_of_isDigit hdigit)]
  simp only [if_pos (Or.inr hdigit), hread, orMalformed, bind, Except.bind, hvalue, if_pos hbyte]
  rw [Int.toNat_natCast, UInt8.ofNat_toNat]
  rfl

theorem readBytesAfter_end {fuel : ℕ} (first : Bool) (h : skipBlanks cs = ']' :: rest) :
    readBytesAfter (fuel + 1) first cs = .ok ([], rest) := by
  simp only [readBytesAfter, h]

theorem readBytesAfter_first {fuel : ℕ} {b : UInt8} {d : Char} {ds after : List Char}
    (hstart : skipBlanks cs = d :: ds) (hd : d ≠ ']') (hbyte : readByte cs = .ok (b, after)) :
    readBytesAfter (fuel + 1) true cs =
      (readBytesAfter fuel false after).map fun y ↦ (b :: y.1, y.2) := by
  have hagain : skipBlanks (d :: ds) = d :: ds := by rw [← hstart, skipBlanks_skipBlanks]
  have hbyte' : readByte (d :: ds) = .ok (b, after) := by
    rw [← hstart, readByte_skipBlanks, hbyte]
  have hhead : ¬ (d :: ds).head? = some ']' := fun h ↦ hd (Option.some.inj h)
  rw [readBytesAfter, hstart]
  split
  · next heq => exact absurd (List.cons.inj heq).1 hd
  -- Before the first item no comma is read, and the blanks are skipped once more.
  · simp only [if_true, pure, Except.pure, bind, Except.bind, hagain, if_neg hhead, hbyte']
    cases readBytesAfter fuel false after <;> rfl

theorem readBytesAfter_next {fuel : ℕ} {b : UInt8} {d : Char} {ds es after : List Char}
    (hcomma : skipBlanks cs = ',' :: es) (hstart : skipBlanks es = d :: ds) (hd : d ≠ ']')
    (hbyte : readByte es = .ok (b, after)) : readBytesAfter (fuel + 1) false cs =
      (readBytesAfter fuel false after).map fun y ↦ (b :: y.1, y.2) := by
  have hexpect : expectChar ',' (',' :: es) = .ok es := rfl
  have hhead : ¬ (d :: ds).head? = some ']' := fun h ↦ hd (Option.some.inj h)
  rw [readBytesAfter, hcomma]
  split
  · next heq => exact absurd (List.cons.inj heq).1 (by decide)
  · simp only [Bool.false_eq_true, if_false, hexpect, bind, Except.bind, hstart, if_neg hhead,
      hbyte]
    cases readBytesAfter fuel false after <;> rfl

theorem digits_starts {b : UInt8} (h : cs = Nat.toDigits 10 b.toNat) :
    ∃ d ds, cs = d :: ds ∧ isBlank d = false ∧ d ≠ ']' := by
  obtain ⟨d, ds, hds, hdigit⟩ := (wholeText_byte b).exists_cons
  refine ⟨d, ds, h.trans hds, isBlank_of_isDigit hdigit, ?_⟩
  rintro rfl
  cases hdigit

/-- After a byte the others are read, each after a comma. -/
theorem readBytesAfter_rest {bs : Bytes} {items : List Padded}
    (h : List.Forall₂ (fun b x ↦ x.text = Nat.toDigits 10 b.toNat) bs items) {fuel : ℕ}
    (hfuel : items.length < fuel) (hws : Blanks ws) (rest : List Char) :
    readBytesAfter fuel false
        (ws ++ ((items.map Padded.render).flatMap (',' :: ·) ++ ']' :: rest)) =
      .ok (bs, rest) := by
  obtain ⟨fuel, rfl⟩ := Nat.exists_eq_add_one.mpr (Nat.zero_lt_of_lt hfuel)
  induction h generalizing ws fuel with
  | nil => exact readBytesAfter_end false (skipBlanks_append_cons hws rfl rest)
  | @cons b x bs items hx _ ih =>
    obtain ⟨d, ds, htext, hblank, hd⟩ := digits_starts hx
    obtain ⟨c, cs, hcs, hc⟩ := exists_delimiter (items.map Padded.render) (c := ']') (by simp) rest
    have hbyte := readByte_render hx hc cs
    rw [← hcs] at hbyte
    rw [List.map_cons, List.flatMap_cons, List.cons_append, List.cons_append, List.append_assoc,
      readBytesAfter_next (skipBlanks_append_cons hws rfl _)
        (Padded.skipBlanks_render htext hblank _) hd hbyte]
    rw [List.length_cons] at hfuel
    obtain ⟨fuel, rfl⟩ : ∃ k, fuel = k + 1 := Nat.exists_eq_add_one.mpr (by omega)
    rw [ih x.blanks_after fuel (by omega)]
    rfl

theorem readBytes_list {ds : List Char} (h : skipBlanks cs = '[' :: ds) :
    readBytes cs = readBytesAfter (ds.length + 1) true ds := by
  simp only [readBytes, h]

theorem readBytes_bytesText {bs : Bytes} {x : Padded} (hx : BytesText bs x.text)
    (rest : List Char) : readBytes (x.render ++ rest) = .ok (bs, x.after ++ rest) := by
  generalize htext : x.text = text at hx
  obtain @⟨ws, bs, items, hws, hitems⟩ := hx
  rw [readBytes_list (Padded.skipBlanks_render htext rfl rest)]
  have happend : ws ++ (separated (items.map Padded.render) ++ [']']) ++ (x.after ++ rest) =
      ws ++ (separated (items.map Padded.render) ++ ']' :: (x.after ++ rest)) := by simp
  rw [happend]
  cases hitems with
  | nil => exact readBytesAfter_end true (skipBlanks_append_cons hws rfl _)
  | @cons b y bs items hy hitems =>
    obtain ⟨d, ds, hds, hblank, hd⟩ := digits_starts hy
    obtain ⟨c, cs, hcs, hc⟩ :=
      exists_delimiter (items.map Padded.render) (c := ']') (by simp) (x.after ++ rest)
    have hfirst : ws ++ (separated ((y :: items).map Padded.render) ++ ']' :: (x.after ++ rest)) =
        (y.indent hws).render ++ ((items.map Padded.render).flatMap (',' :: ·) ++
          ']' :: (x.after ++ rest)) := by
      rw [List.map_cons, separated_cons, Padded.render_indent]
      simp only [List.append_assoc]
    have hbyte := readByte_render (x := y.indent hws) hy hc cs
    rw [← hcs] at hbyte
    rw [hfirst, readBytesAfter_first (Padded.skipBlanks_render (x := y.indent hws) hds hblank _) hd
      hbyte]
    have hlength := length_le_flatMap (items.map Padded.render)
    rw [List.length_map] at hlength
    rw [readBytesAfter_rest hitems _ (y.indent hws).blanks_after]
    · rfl
    · rw [List.length_append, List.length_append, List.length_cons]
      omega

theorem BytesText.starts {bs : Bytes} (h : BytesText bs cs) :
    ∃ d ds, cs = d :: ds ∧ isBlank d = false ∧ d ≠ ']' := by
  cases h
  exact ⟨_, _, rfl, rfl, by decide⟩

theorem reads_bytesText : Reads readBytes BytesText where
  read := readBytes_bytesText
  starts := BytesText.starts

/-! ## Whole texts -/

/-- A text that is read up to blanks is read as a whole. -/
theorem readWhole_render {reader : Reader α} {a : α} {x : Padded}
    (h : reader x.render = .ok (a, x.after)) :
    readWhole reader (String.ofList x.render) = .ok a := by
  have hend : skipBlanks x.after = [] := by
    rw [← List.append_nil x.after, skipBlanks_append x.blanks_after]
    rfl
  rw [readWhole, String.toList_ofList, h]
  simp only [bind, Except.bind, hend, List.isEmpty_nil, if_true]
  rfl

end BilinearGroups.Json
