import Mathlib.Data.List.Forall2
import Mathlib.Data.List.Induction
import Mathlib.Tactic.SplitIfs
import BilinearGroups.Parameters
import BilinearGroups.Proofs.Text.Lines

/-!
# The entries of a description

The entries of a description are its lines without the blanks around them, as far as they are not
blank and not comments. Each has a key, up to its first blank, and a value, after that. An entry
offends if it has no value, an unknown key or an unknown curve, or if it gives once more what was
given before (`Entry.Offends`), and the reader stops at the first one that does. A curve is known by
every text that spells one of its names, character by character (`CurveName.Spells`).

After entries that do not offend, the reader knows what they gave (`Draft.ofEntries`): this is the
invariant of its loop, and everything is read off it. A description is accepted exactly if it
`Describes` valid parameters, and otherwise it is refused for the first offence, or if there is
none for what it leaves out, or for parameters that are not valid.
-/

namespace BilinearGroups

/-! ## Spellings of a name -/

namespace CurveName

/-- In a spelling a capital letter stands for the small letter, which comes 32 places later, an
underscore for a hyphen, and every other character for itself. -/
inductive StandsFor : Char → Char → Prop
  /-- A capital letter. -/
  | capital {c d : Char} : 'A' ≤ c → c ≤ 'Z' → d.toNat = c.toNat + 32 → StandsFor c d
  /-- An underscore. -/
  | underscore : StandsFor '_' '-'
  /-- Another character. -/
  | itself {c : Char} : ¬('A' ≤ c ∧ c ≤ 'Z') → c ≠ '_' → StandsFor c c

/-- The first text spells the second, character by character. -/
def Spells (s t : String) : Prop := List.Forall₂ StandsFor s.toList t.toList

theorem toLower_of_capital {c : Char} (h : 'A' ≤ c ∧ c ≤ 'Z') :
    c.toLower.toNat = c.toNat + 32 := by
  have hbound : c.val.toNat ≤ 90 := h.2
  have hlower : c.toLower = _ := dif_pos ⟨h.1, h.2⟩
  rw [hlower]
  exact (UInt32.toNat_add _ _).trans (Nat.mod_eq_of_lt (show c.val.toNat + 32 < 2 ^ 32 by omega))

theorem toLower_of_not_capital {c : Char} (h : ¬('A' ≤ c ∧ c ≤ 'Z')) : c.toLower = c :=
  dif_neg h

theorem standsFor_iff {c d : Char} :
    StandsFor c d ↔ (if c = '_' then '-' else c.toLower) = d := by
  constructor
  · rintro (⟨hA, hZ, hd⟩ | _ | ⟨hcapital, hc⟩)
    · have hc : c ≠ '_' := by
        rintro rfl
        exact absurd hZ (by decide)
      rw [if_neg hc, ← Char.toNat_inj, toLower_of_capital ⟨hA, hZ⟩, hd]
    · rfl
    · rw [if_neg hc, toLower_of_not_capital hcapital]
  · rintro rfl
    by_cases hc : c = '_'
    · rw [if_pos hc, hc]
      exact .underscore
    · rw [if_neg hc]
      by_cases hcapital : 'A' ≤ c ∧ c ≤ 'Z'
      · exact .capital hcapital.1 hcapital.2 (toLower_of_capital hcapital)
      · rw [toLower_of_not_capital hcapital]
        exact .itself hcapital hc

instance : DecidableRel StandsFor := fun _ _ ↦ decidable_of_iff _ standsFor_iff.symm

instance (s t : String) : Decidable (Spells s t) :=
  inferInstanceAs (Decidable (List.Forall₂ _ _ _))

/-- A curve is looked up under the one text that its name spells. -/
theorem spells_iff {s t : String} : Spells s t ↔ spelling s = t := by
  have hstands : StandsFor = fun c d ↦ (if c = '_' then '-' else c.toLower) = d :=
    funext₂ fun _ _ ↦ propext standsFor_iff
  rw [Spells, hstands, spelling, ← String.toList_inj, String.toList_map, ← List.forall₂_eq_eq_eq,
    List.forall₂_map_left_iff]

end CurveName

namespace Parameters

open Text

/-! ## Entries -/

/-- A line that says something: its number among all lines, and its text without the blanks at its
ends. -/
structure Entry where
  /-- The number, where the first line has number one. -/
  number : ℕ
  /-- The text. -/
  line : List Char

namespace Entry

/-- What stands before the first blank. -/
def key (e : Entry) : String := String.ofList (e.line.takeWhile (!isBlank ·))

/-- What stands after the first blank, without the blanks at its ends. -/
def value (e : Entry) : String := String.ofList (trim (e.line.dropWhile (!isBlank ·)))

/-- There is a blank, and so a value. -/
def hasValue (e : Entry) : Bool := e.line.any isBlank

/-- The entry gives the curve. -/
def givesCurve (e : Entry) : Bool := e.key = "curve" || e.key = "type"

/-- The entry gives the hash domain. -/
def givesDomain (e : Entry) : Bool := e.key = "hash_domain"

/-- The value spells a name of the curve, with its hyphen or without. -/
def NamesCurve (e : Entry) : Prop :=
  CurveName.Spells e.value "bls12-381" ∨ CurveName.Spells e.value "bls12381"

/-- How an entry offends that follows others. -/
inductive Offends (before : List Entry) (e : Entry) : ParameterError → Prop
  /-- It has no value. -/
  | missingValue : e.hasValue = false → Offends before e (.missingValue e.number)
  /-- It has a value, and its key is not known. -/
  | unknownKey : e.hasValue = true → e.givesCurve = false → e.givesDomain = false →
    Offends before e (.unknownKey e.number e.key)
  /-- It gives a curve that is not known. -/
  | unknownCurve {name : String} : e.hasValue = true → e.givesCurve = true → ¬e.NamesCurve →
    CurveName.Spells e.value name → Offends before e (.unknownCurve name)
  /-- It gives the curve once more. -/
  | duplicateCurve : e.hasValue = true → e.givesCurve = true → e.NamesCurve →
    (∃ d ∈ before, d.givesCurve = true) → Offends before e (.duplicateCurve e.number)
  /-- It gives the hash domain once more. -/
  | duplicateDomain : e.hasValue = true → e.givesDomain = true →
    (∃ d ∈ before, d.givesDomain = true) → Offends before e (.duplicateDomain e.number)

instance (e : Entry) : Decidable e.NamesCurve := inferInstanceAs (Decidable (_ ∨ _))

theorem not_givesDomain {e : Entry} (h : e.givesCurve = true) : e.givesDomain = false := by
  simp only [givesCurve, Bool.or_eq_true, decide_eq_true_eq] at h
  rcases h with h | h <;> simp [givesDomain, h]

end Entry

/-- The line says something: it is not blank, and it is not a comment. -/
def isEntry (line : List Char) : Bool := !line.isEmpty && line.head? != some '#'

/-- The entries of lines, of which the first has number `n`. -/
def entriesFrom (n : ℕ) (ls : List (List Char)) : List Entry :=
  (((ls.map trim).zipIdx n).filter fun (line, _) ↦ isEntry line).map fun (line, n) ↦ ⟨n, line⟩

/-- The entries of a description. -/
def entries (text : String) : List Entry := entriesFrom 1 (splitLines text.toList)

/-- No entry offends. -/
def Inoffensive (es : List Entry) : Prop :=
  ∀ before e after, es = before ++ e :: after → ∀ reason, ¬ e.Offends before reason

/-- The first entry that offends does so for a reason. -/
def FirstOffence (es : List Entry) (reason : ParameterError) : Prop :=
  ∃ before e after, es = before ++ e :: after ∧ Inoffensive before ∧ e.Offends before reason

/-- The entries say what the parameters are: each of them gives the curve or the hash domain, one
gives the curve, and at most one gives the hash domain. -/
structure Describes (es : List Entry) (p : Parameters) : Prop where
  gives : ∀ e ∈ es, e.hasValue = true ∧ (e.givesCurve = true ∨ e.givesDomain = true)
  curve : p.curve = .bls12381 ∧ ∃ e, es.filter Entry.givesCurve = [e] ∧ e.NamesCurve
  domain : (es.filter Entry.givesDomain = [] ∧ p.hashDomain = defaultHashDomain) ∨
    ∃ e, es.filter Entry.givesDomain = [e] ∧ p.hashDomain = e.value

/-! ## Reading entries -/

theorem entriesFrom_cons (n : ℕ) (raw : List Char) (ls : List (List Char)) :
    entriesFrom n (raw :: ls) =
      if isEntry (trim raw) then ⟨n, trim raw⟩ :: entriesFrom (n + 1) ls
      else entriesFrom (n + 1) ls := by
  rw [entriesFrom, List.map_cons, List.zipIdx_cons, List.filter_cons]
  split_ifs <;> rfl

namespace Draft

/-- Takes up an entry. -/
def readEntryOf (d : Draft) (e : Entry) : Except ParameterError Draft :=
  if e.hasValue then d.readEntry e.number e.key e.value else .error (.missingValue e.number)

theorem readLine_eq (d : Draft) (n : ℕ) (raw : List Char) : d.readLine n raw =
    if isEntry (trim raw) then d.readEntryOf ⟨n, trim raw⟩ else .ok d := by
  have hskip : (trim raw).isEmpty = true ∨ (trim raw).head? = some '#' ↔ ¬ isEntry (trim raw) := by
    simp [isEntry, imp_iff_not_or]
  rw [readLine, ite_cond_congr (propext hskip), ite_not]
  refine ite_congr rfl (fun _ ↦ ?_) fun _ ↦ rfl
  rw [readEntryOf]
  split
  · next hnil =>
    have hvalue : (Entry.mk n (trim raw)).hasValue = false := by
      simpa [Entry.hasValue, List.dropWhile_eq_nil_iff] using hnil
    rw [if_neg (Bool.not_eq_true _ ▸ hvalue)]
  · next hne =>
    have hvalue : (Entry.mk n (trim raw)).hasValue = true := by
      simpa [Entry.hasValue, List.dropWhile_eq_nil_iff] using hne
    rw [if_pos hvalue]
    rfl

theorem readLines_eq (d : Draft) (n : ℕ) (ls : List (List Char)) :
    d.readLines n ls = (entriesFrom n ls).foldlM readEntryOf d := by
  induction ls generalizing d n with
  | nil => rfl
  | cons raw ls ih =>
    rw [readLines, readLine_eq, entriesFrom_cons]
    split_ifs
    · rw [List.foldlM_cons]
      exact bind_congr fun d ↦ ih d (n + 1)
    · exact ih d (n + 1)

/-- What entries gave that do not offend. -/
def ofEntries (es : List Entry) : Draft where
  curve? := if es.any Entry.givesCurve then some .bls12381 else none
  hashDomain? := (es.find? Entry.givesDomain).map Entry.value

theorem parse_value (e : Entry) : CurveName.parse e.value =
    if e.NamesCurve then .ok .bls12381
    else .error (.unknownCurve (CurveName.spelling e.value)) := by
  simp only [CurveName.parse, Entry.NamesCurve, CurveName.spells_iff]

theorem readEntryOf_eq (d : Draft) (e : Entry) : d.readEntryOf e =
    if e.hasValue then
      if e.givesCurve then
        if e.NamesCurve then
          if d.curve?.isSome then .error (.duplicateCurve e.number)
          else .ok { d with curve? := some .bls12381 }
        else .error (.unknownCurve (CurveName.spelling e.value))
      else if e.givesDomain then
        if d.hashDomain?.isSome then .error (.duplicateDomain e.number)
        else .ok { d with hashDomain? := some e.value }
      else .error (.unknownKey e.number e.key)
    else .error (.missingValue e.number) := by
  rw [readEntryOf, readEntry, parse_value]
  simp only [Entry.givesCurve, Entry.givesDomain, Bool.or_eq_true, decide_eq_true_eq]
  split_ifs <;> rfl

variable {before es : List Entry} {e : Entry} {reason : ParameterError}

theorem isSome_curve? (es : List Entry) :
    (ofEntries es).curve?.isSome = true ↔ ∃ e ∈ es, e.givesCurve = true := by
  simp [ofEntries]

theorem isSome_hashDomain? (es : List Entry) :
    (ofEntries es).hashDomain?.isSome = true ↔ ∃ e ∈ es, e.givesDomain = true := by
  simp [ofEntries]

/-- An entry that offends is refused for the reason it does. -/
theorem readEntryOf_of_offends (h : e.Offends before reason) :
    (ofEntries before).readEntryOf e = .error reason := by
  rw [readEntryOf_eq]
  cases h with
  | missingValue hvalue => simp [hvalue]
  | unknownKey hvalue hcurve hdomain => simp [hvalue, hcurve, hdomain]
  | unknownCurve hvalue hcurve hnames hspells =>
    rw [if_pos hvalue, if_pos hcurve, if_neg hnames, CurveName.spells_iff.mp hspells]
  | duplicateCurve hvalue hcurve hnames hbefore =>
    rw [if_pos hvalue, if_pos hcurve, if_pos hnames, if_pos ((isSome_curve? _).mpr hbefore)]
  | duplicateDomain hvalue hdomain hbefore =>
    have hcurve : ¬ e.givesCurve = true := fun h ↦ by simp [e.not_givesDomain h] at hdomain
    rw [if_pos hvalue, if_neg hcurve, if_pos hdomain, if_pos ((isSome_hashDomain? _).mpr hbefore)]

/-- An entry that does not offend is taken up. -/
theorem readEntryOf_of_not_offends (h : ∀ reason, ¬ e.Offends before reason) :
    (ofEntries before).readEntryOf e = .ok (ofEntries (before ++ [e])) := by
  rw [readEntryOf_eq]
  split_ifs with hvalue hcurve hnames hbefore hdomain hbefore
  · exact absurd (.duplicateCurve hvalue hcurve hnames ((isSome_curve? _).mp hbefore)) (h _)
  · simp [ofEntries, hcurve, e.not_givesDomain hcurve]
  · exact absurd (.unknownCurve hvalue hcurve hnames (CurveName.spells_iff.mpr rfl)) (h _)
  · exact absurd (.duplicateDomain hvalue hdomain ((isSome_hashDomain? _).mp hbefore)) (h _)
  -- No domain was given before, so the new one is the first.
  · have hfirst : before.find? Entry.givesDomain = none := by
      simpa [ofEntries, Option.isSome_map] using hbefore
    simp [ofEntries, hcurve, hdomain, hfirst, List.find?_append]
  · exact absurd (.unknownKey hvalue (Bool.not_eq_true _ ▸ hcurve) (Bool.not_eq_true _ ▸ hdomain))
      (h _)
  · exact absurd (.missingValue (Bool.not_eq_true _ ▸ hvalue)) (h _)

theorem parameters_eq_error_iff : (ofEntries es).parameters = .error reason ↔
    (∀ e ∈ es, e.givesCurve = false) ∧ reason = .missingCurve := by
  rw [parameters, ofEntries]
  by_cases hcurve : es.any Entry.givesCurve
  · obtain ⟨e, he, hgives⟩ := List.any_eq_true.mp hcurve
    rw [if_pos hcurve]
    refine iff_of_false nofun fun h ↦ ?_
    rw [h.1 e he] at hgives
    cases hgives
  · rw [if_neg hcurve]
    have hnone : ∀ e ∈ es, e.givesCurve = false := by simpa using hcurve
    exact ⟨fun h ↦ ⟨hnone, (Except.error.inj h).symm⟩, fun h ↦ congrArg _ h.2.symm⟩

end Draft

/-! ## Offences -/

variable {es : List Entry} {e : Entry} {reason : ParameterError} {p : Parameters}

theorem inoffensive_concat_iff :
    Inoffensive (es ++ [e]) ↔ Inoffensive es ∧ ∀ reason, ¬ e.Offends es reason := by
  constructor
  · intro h
    refine ⟨fun before d after hes ↦ h before d (after ++ [e]) ?_, h es e [] rfl⟩
    rw [hes, List.append_assoc, List.cons_append]
  · rintro ⟨hes, he⟩ before d after heq
    obtain rfl | ⟨after, last, rfl⟩ := List.eq_nil_or_concat' after
    · obtain ⟨rfl, hlast⟩ := List.append_inj' heq rfl
      obtain rfl : e = d := List.singleton_inj.mp hlast
      exact he
    · rw [← List.cons_append, ← List.append_assoc] at heq
      obtain ⟨rfl, -⟩ := List.append_inj' heq rfl
      exact hes before d after rfl

theorem inoffensive_or_exists_firstOffence (es : List Entry) :
    Inoffensive es ∨ ∃ reason, FirstOffence es reason := by
  -- An entry offends or not by what comes before it, so the lists grow at their ends.
  induction es using List.reverseRecOn with
  | nil => exact .inl fun before e after h ↦ by simp at h
  | append_singleton es e ih =>
    rcases ih with hes | ⟨reason, before, d, after, rfl, hbefore, hd⟩
    · by_cases he : ∃ reason, e.Offends es reason
      · obtain ⟨reason, he⟩ := he
        exact .inr ⟨reason, es, e, [], rfl, hes, he⟩
      · exact .inl (inoffensive_concat_iff.mpr ⟨hes, not_exists.mp he⟩)
    · exact .inr ⟨reason, before, d, after ++ [e], by simp, hbefore, hd⟩

/-- The reader takes up entries of which none offends. -/
theorem foldlM_of_inoffensive (h : Inoffensive es) :
    es.foldlM Draft.readEntryOf .empty = .ok (.ofEntries es) := by
  induction es using List.reverseRecOn with
  | nil => rfl
  | append_singleton es e ih =>
    obtain ⟨hes, he⟩ := inoffensive_concat_iff.mp h
    rw [List.foldlM_append, ih hes]
    exact (bind_pure _).trans (Draft.readEntryOf_of_not_offends he)

/-- The reader stops at the first entry that offends. -/
theorem foldlM_of_firstOffence (h : FirstOffence es reason) :
    es.foldlM Draft.readEntryOf .empty = .error reason := by
  obtain ⟨before, e, after, rfl, hbefore, he⟩ := h
  rw [List.foldlM_append, foldlM_of_inoffensive hbefore]
  show (do after.foldlM _ (← (Draft.ofEntries before).readEntryOf e)) = _
  rw [Draft.readEntryOf_of_offends he]
  rfl

theorem not_offends_iff {before : List Entry} : (∀ reason, ¬ e.Offends before reason) ↔
    e.hasValue = true ∧
      ((e.givesCurve = true ∧ e.NamesCurve ∧ ∀ d ∈ before, ¬ d.givesCurve = true) ∨
        e.givesDomain = true ∧ ∀ d ∈ before, ¬ d.givesDomain = true) := by
  constructor
  · intro h
    have hvalue : e.hasValue = true := by
      by_contra hvalue
      exact h _ (.missingValue (Bool.not_eq_true _ ▸ hvalue))
    refine ⟨hvalue, ?_⟩
    by_cases hcurve : e.givesCurve = true
    · have hnames : e.NamesCurve := by
        by_contra hnames
        exact h _ (.unknownCurve hvalue hcurve hnames (CurveName.spells_iff.mpr rfl))
      exact .inl ⟨hcurve, hnames, fun d hd hgives ↦
        h _ (.duplicateCurve hvalue hcurve hnames ⟨d, hd, hgives⟩)⟩
    · have hdomain : e.givesDomain = true := by
        by_contra hdomain
        exact h _ (.unknownKey hvalue (Bool.not_eq_true _ ▸ hcurve)
          (Bool.not_eq_true _ ▸ hdomain))
      exact .inr ⟨hdomain, fun d hd hgives ↦
        h _ (.duplicateDomain hvalue hdomain ⟨d, hd, hgives⟩)⟩
  · have hexclusive := e.not_givesDomain
    rintro ⟨hvalue, ⟨hcurve, hnames, hfirst⟩ | ⟨hdomain, hfirst⟩⟩ reason hoffends <;>
      cases hoffends <;> grind

theorem inoffensive_iff : Inoffensive es ↔
    (∀ e ∈ es, e.hasValue = true ∧
      ((e.givesCurve = true ∧ e.NamesCurve) ∨ e.givesDomain = true)) ∧
    (es.filter Entry.givesCurve).length ≤ 1 ∧ (es.filter Entry.givesDomain).length ≤ 1 := by
  induction es using List.reverseRecOn with
  | nil =>
    exact iff_of_true (fun before e after h ↦ by simp at h) ⟨by simp, by simp, by simp⟩
  | append_singleton es e ih =>
    rw [inoffensive_concat_iff, ih, not_offends_iff, List.filter_append, List.filter_append,
      List.length_append, List.length_append, List.forall_mem_append, List.forall_mem_singleton,
      ← List.filter_eq_nil_iff, ← List.filter_eq_nil_iff, ← List.length_eq_zero_iff,
      ← List.length_eq_zero_iff]
    have hexclusive := e.not_givesDomain
    by_cases hcurve : e.givesCurve = true <;> by_cases hdomain : e.givesDomain = true <;>
      simp only [hcurve, hdomain] at hexclusive ⊢ <;> grind

theorem parameters_ofEntries_eq_ok_iff : (Draft.ofEntries es).parameters = .ok p ↔
    p.curve = .bls12381 ∧ (∃ e ∈ es, e.givesCurve = true) ∧
      p.hashDomain = ((es.filter Entry.givesDomain).head?.map Entry.value).getD
        defaultHashDomain := by
  rw [List.head?_filter, Draft.parameters, Draft.ofEntries, ← List.any_eq_true]
  by_cases hcurve : es.any Entry.givesCurve = true
  · rw [if_pos hcurve]
    refine ⟨?_, fun ⟨hname, _, hdomain⟩ ↦ ?_⟩
    · rintro ⟨⟩
      exact ⟨rfl, hcurve, rfl⟩
    · obtain ⟨curve, domain⟩ := p
      obtain rfl : curve = .bls12381 := hname
      obtain rfl : domain = _ := hdomain
      rfl
  · rw [if_neg hcurve]
    exact iff_of_false nofun fun h ↦ hcurve h.2.1

/-- A list with at most one element that gives something. -/
theorem filter_length_le_one_iff {gives : Entry → Bool} :
    (es.filter gives).length ≤ 1 ↔ es.filter gives = [] ∨ ∃ e, es.filter gives = [e] := by
  rw [Nat.le_one_iff_eq_zero_or_eq_one, List.length_eq_zero_iff, List.length_eq_one_iff]

theorem describes_iff :
    Describes es p ↔ Inoffensive es ∧ (Draft.ofEntries es).parameters = .ok p := by
  rw [inoffensive_iff, parameters_ofEntries_eq_ok_iff, filter_length_le_one_iff,
    filter_length_le_one_iff]
  constructor
  · rintro ⟨hgives, ⟨hname, e, hcurve, hnames⟩, hdomain⟩
    have hmem : ∀ d ∈ es, d.givesCurve = true → d = e := fun d hd hgives ↦ by
      simpa [hcurve] using List.mem_filter.mpr ⟨hd, hgives⟩
    have he : e ∈ es ∧ e.givesCurve = true := by
      simp [← List.mem_filter, hcurve]
    refine ⟨⟨fun d hd ↦ ⟨(hgives d hd).1, (hgives d hd).2.imp_left fun h ↦ ⟨h, ?_⟩⟩,
      .inr ⟨e, hcurve⟩, hdomain.imp And.left fun ⟨d, hd, _⟩ ↦ ⟨d, hd⟩⟩, hname, ⟨e, he⟩, ?_⟩
    · rw [hmem d hd h]
      exact hnames
    · rcases hdomain with ⟨hnone, hp⟩ | ⟨d, hsome, hp⟩
      · rw [hnone, hp]; rfl
      · rw [hsome, hp]; rfl
  · rintro ⟨⟨hgives, hcurve, hdomain⟩, hname, ⟨e, he, hgivesCurve⟩, hp⟩
    have hmem : e ∈ es.filter Entry.givesCurve := List.mem_filter.mpr ⟨he, hgivesCurve⟩
    refine ⟨fun d hd ↦ ⟨(hgives d hd).1, (hgives d hd).2.imp_left And.left⟩,
      ⟨hname, e, ?_, ?_⟩, ?_⟩
    · rcases hcurve with hnone | ⟨d, hsome⟩
      · simp [hnone] at hmem
      · rw [hsome, List.mem_singleton] at hmem
        rw [hsome, hmem]
    · exact ((hgives e he).2.resolve_right (by simp [e.not_givesDomain hgivesCurve])).2
    · refine hdomain.imp (fun hnone ↦ ⟨hnone, ?_⟩) fun ⟨d, hsome⟩ ↦ ⟨d, hsome, ?_⟩
      · rw [hp, hnone]; rfl
      · rw [hp, hsome]; rfl

/-! ## Reading a description -/

theorem entriesFrom_congr {ls ls' : List (List Char)} (h : ls.map trim = ls'.map trim) (n : ℕ) :
    entriesFrom n ls = entriesFrom n ls' := by
  rw [entriesFrom, h, entriesFrom]

theorem entriesFrom_append (n : ℕ) (ls ls' : List (List Char)) :
    entriesFrom n (ls ++ ls') = entriesFrom n ls ++ entriesFrom (n + ls.length) ls' := by
  rw [entriesFrom, List.map_append, List.zipIdx_append, List.filter_append, List.map_append,
    List.length_map]
  rfl

/-- The pieces between line feeds have the entries of the lines. -/
theorem entriesFrom_lines (cs : List Char) :
    entriesFrom 1 (lines cs) = entriesFrom 1 (splitLines cs) := by
  obtain ⟨pieces, last, hlines, hpieces, hlast⟩ := exists_lines_eq cs
  have htrim : pieces.map trim = (splitLines cs).map trim := by
    rw [← List.forall₂_eq_eq_eq, List.forall₂_map_left_iff, List.forall₂_map_right_iff]
    exact hpieces.imp fun _ _ ↦ IsPiece.trim_eq
  rw [hlines, entriesFrom_append, entriesFrom_congr htrim]
  rcases hlast with rfl | rfl
  · exact List.append_nil _
  · exact List.append_nil _

/-- The parameters that a description says, as far as they are valid. -/
theorem parse_eq (text : String) : parse text = do
    let p ← (← (entries text).foldlM Draft.readEntryOf .empty).parameters
    p.validate
    return p := by
  rw [parse, Draft.readLines_eq, entriesFrom_lines]
  rfl

theorem parse_of_inoffensive {text : String} (h : Inoffensive (entries text)) : parse text = do
    let p ← (Draft.ofEntries (entries text)).parameters
    p.validate
    return p := by
  rw [parse_eq, foldlM_of_inoffensive h]
  rfl

theorem parse_of_firstOffence {text : String} (h : FirstOffence (entries text) reason) :
    parse text = .error reason := by
  rw [parse_eq, foldlM_of_firstOffence h]
  rfl

theorem parse_of_missing {text : String} (hinoffensive : Inoffensive (entries text))
    (hmissing : ∀ e ∈ entries text, e.givesCurve = false) : parse text = .error .missingCurve := by
  rw [parse_of_inoffensive hinoffensive, Draft.parameters_eq_error_iff.mpr ⟨hmissing, rfl⟩]
  rfl

theorem parse_of_describes {text : String} (h : Describes (entries text) p) :
    parse text = do p.validate; return p := by
  obtain ⟨hinoffensive, hp⟩ := describes_iff.mp h
  rw [parse_of_inoffensive hinoffensive, hp]
  rfl

/-- The entries of a description offend, leave the curve out, or say what the parameters are. -/
theorem offence_or_missing_or_describes (es : List Entry) :
    (∃ reason, FirstOffence es reason) ∨
      (Inoffensive es ∧ ∀ e ∈ es, e.givesCurve = false) ∨ ∃ p, Describes es p := by
  obtain hinoffensive | hoffence := inoffensive_or_exists_firstOffence es
  · refine .inr ?_
    cases hp : (Draft.ofEntries es).parameters with
    | error reason => exact .inl ⟨hinoffensive, (Draft.parameters_eq_error_iff.mp hp).1⟩
    | ok p => exact .inr ⟨p, describes_iff.mpr ⟨hinoffensive, hp⟩⟩
  · exact .inl hoffence

/-- A description is accepted if it describes valid parameters. -/
theorem parse_eq_ok_iff {text : String} :
    parse text = .ok p ↔ Describes (entries text) p ∧ p.validate = .ok () := by
  constructor
  · intro h
    rcases offence_or_missing_or_describes (entries text) with
      ⟨reason, hoffence⟩ | ⟨hinoffensive, hmissing⟩ | ⟨q, hq⟩
    · rw [parse_of_firstOffence hoffence] at h
      cases h
    · rw [parse_of_missing hinoffensive hmissing] at h
      cases h
    · rw [parse_of_describes hq] at h
      cases hvalid : q.validate with
      | error reason => rw [hvalid] at h; cases h
      | ok =>
        rw [hvalid] at h
        obtain rfl : q = p := Except.ok.inj h
        exact ⟨hq, hvalid⟩
  · rintro ⟨hp, hvalid⟩
    rw [parse_of_describes hp, hvalid]
    rfl

/-- A description is refused for its first offence. If nothing offends, it is refused for leaving
the curve out, and then for parameters that are not valid. -/
theorem parse_eq_error_iff {text : String} : parse text = .error reason ↔
    FirstOffence (entries text) reason ∨
      (Inoffensive (entries text) ∧ (∀ e ∈ entries text, e.givesCurve = false) ∧
        reason = .missingCurve) ∨
      ∃ p, Describes (entries text) p ∧ p.validate = .error reason := by
  constructor
  · intro h
    rcases offence_or_missing_or_describes (entries text) with
      ⟨_, hoffence⟩ | ⟨hinoffensive, hmissing⟩ | ⟨p, hp⟩
    · rw [parse_of_firstOffence hoffence] at h
      obtain rfl := Except.error.inj h
      exact .inl hoffence
    · rw [parse_of_missing hinoffensive hmissing] at h
      exact .inr (.inl ⟨hinoffensive, hmissing, (Except.error.inj h).symm⟩)
    · rw [parse_of_describes hp] at h
      cases hvalid : p.validate with
      | error _ =>
        rw [hvalid] at h
        obtain rfl := Except.error.inj h
        exact .inr (.inr ⟨p, hp, hvalid⟩)
      | ok => rw [hvalid] at h; cases h
  · rintro (hoffence | ⟨hinoffensive, hmissing, rfl⟩ | ⟨p, hp, hvalid⟩)
    · exact parse_of_firstOffence hoffence
    · exact parse_of_missing hinoffensive hmissing
    · rw [parse_of_describes hp, hvalid]
      rfl

end Parameters

end BilinearGroups
