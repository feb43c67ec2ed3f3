import Mathlib.Data.List.Perm.Basic
import Mathlib.Logic.Relation
import BilinearGroups.Proofs.Parameters.Entries

/-!
# The text form of parameters is read exactly

How the lines of a description are spaced and in which order they stand does not matter to one that
is accepted: the lines say the same after such a change (`SayAlike`), and what a description says
is all that its parameters depend on. So the description of valid parameters is read back, however
it is reworded.
-/

namespace BilinearGroups.Parameters

open Text

variable {es : List Entry} {e : Entry} {p : Parameters}

/-! ## Rewording a description -/

namespace Entry

/-- What an entry says, wherever it stands. -/
def said (e : Entry) : Bool × String × String := (e.hasValue, e.key, e.value)

variable {d e : Entry}

theorem hasValue_congr (h : d.said = e.said) : d.hasValue = e.hasValue := congrArg (·.1) h

theorem key_congr (h : d.said = e.said) : d.key = e.key := congrArg (·.2.1) h

theorem value_congr (h : d.said = e.said) : d.value = e.value := congrArg (·.2.2) h

theorem givesCurve_congr (h : d.said = e.said) : d.givesCurve = e.givesCurve := by
  rw [givesCurve, givesCurve, key_congr h]

theorem givesDomain_congr (h : d.said = e.said) : d.givesDomain = e.givesDomain := by
  rw [givesDomain, givesDomain, key_congr h]

theorem namesCurve_congr (h : d.said = e.said) : d.NamesCurve ↔ e.NamesCurve := by
  rw [NamesCurve, NamesCurve, value_congr h]

end Entry

/-- The entries say the same, in any order. -/
def SayAlike (es es' : List Entry) : Prop := (es.map Entry.said).Perm (es'.map Entry.said)

namespace SayAlike

variable {es' : List Entry}

theorem exists_mem (h : SayAlike es es') {e' : Entry} (he : e' ∈ es') :
    ∃ e ∈ es, e.said = e'.said :=
  List.mem_map.mp (h.mem_iff.mpr (List.mem_map_of_mem he))

/-- Those that say something of a kind say the same. -/
theorem filter {gives : Entry → Bool} (saysSo : Bool × String × String → Bool)
    (hgives : ∀ e, gives e = saysSo e.said) (h : SayAlike es es') :
    SayAlike (es.filter gives) (es'.filter gives) := by
  obtain rfl : gives = saysSo ∘ Entry.said := funext hgives
  rw [SayAlike, ← List.filter_map, ← List.filter_map]
  exact List.Perm.filter saysSo h

theorem filter_givesCurve (h : SayAlike es es') :
    SayAlike (es.filter Entry.givesCurve) (es'.filter Entry.givesCurve) :=
  h.filter (fun said ↦ said.2.1 = "curve" || said.2.1 = "type") fun _ ↦ rfl

theorem filter_givesDomain (h : SayAlike es es') :
    SayAlike (es.filter Entry.givesDomain) (es'.filter Entry.givesDomain) :=
  h.filter (fun said ↦ said.2.1 = "hash_domain") fun _ ↦ rfl

theorem symm (h : SayAlike es es') : SayAlike es' es := List.Perm.symm h

theorem eq_nil (h : SayAlike [] es') : es' = [] := List.map_eq_nil_iff.mp (List.nil_perm.mp h)

theorem eq_singleton (h : SayAlike [e] es') : ∃ e', es' = [e'] ∧ e.said = e'.said := by
  obtain ⟨e', rfl, he⟩ := List.map_eq_singleton_iff.mp (List.singleton_perm.mp h).symm
  exact ⟨e', rfl, he.symm⟩

/-- Entries that say the same describe the same parameters. -/
theorem describes (h : SayAlike es es') (hp : Describes es p) : Describes es' p := by
  obtain ⟨hgives, ⟨hname, e, hcurve, hnames⟩, hdomain⟩ := hp
  refine ⟨fun e' he' ↦ ?_, ⟨hname, ?_⟩, ?_⟩
  · obtain ⟨e, he, hsaid⟩ := h.exists_mem he'
    rw [← Entry.hasValue_congr hsaid, ← Entry.givesCurve_congr hsaid,
      ← Entry.givesDomain_congr hsaid]
    exact hgives e he
  · have hfilter := h.filter_givesCurve
    rw [hcurve] at hfilter
    obtain ⟨e', he', hsaid⟩ := hfilter.eq_singleton
    exact ⟨e', he', (Entry.namesCurve_congr hsaid).mp hnames⟩
  · have hfilter := h.filter_givesDomain
    rcases hdomain with ⟨hnone, hdefault⟩ | ⟨e, hsome, hvalue⟩
    · rw [hnone] at hfilter
      exact .inl ⟨hfilter.eq_nil, hdefault⟩
    · rw [hsome] at hfilter
      obtain ⟨e', he', hsaid⟩ := hfilter.eq_singleton
      exact .inr ⟨e', he', hvalue.trans (Entry.value_congr hsaid)⟩

end SayAlike

/-- What a line says, if it is an entry. -/
def lineSays (line : List Char) : List (Bool × String × String) :=
  if isEntry (trim line) then [(Entry.mk 0 (trim line)).said] else []

theorem map_said_entriesFrom (n : ℕ) (ls : List (List Char)) :
    (entriesFrom n ls).map Entry.said = ls.flatMap lineSays := by
  induction ls generalizing n with
  | nil => rfl
  | cons line ls ih =>
    rw [entriesFrom_cons, List.flatMap_cons, lineSays]
    split_ifs
    · exact congrArg _ (ih _)
    · exact ih _

/-- The second line is the first one with more blanks, at its ends or between the key and the
value. -/
inductive Padded : List Char → List Char → Prop
  /-- There are more blanks at the ends. -/
  | ends {before after : List Char} (line : List Char) : AllBlank before → AllBlank after →
    Padded line (before ++ line ++ after)
  /-- There are more blanks after the first one. -/
  | gap {indent key gap : List Char} {b : Char} (rest : List Char) : AllBlank indent → IsWord key →
    isBlank b = true → AllBlank gap →
    Padded (indent ++ (key ++ b :: rest)) (indent ++ (key ++ b :: (gap ++ rest)))

/-- The second description is the first one with one change that says nothing. -/
inductive Reworded : List (List Char) → List (List Char) → Prop
  /-- A line is put in that is blank or a comment. -/
  | silent (ls ls' : List (List Char)) {line : List Char} : isEntry (trim line) = false →
    Reworded (ls ++ ls') (ls ++ line :: ls')
  /-- A line is padded. -/
  | padded (ls ls' : List (List Char)) {line line' : List Char} : Padded line line' →
    Reworded (ls ++ line :: ls') (ls ++ line' :: ls')
  /-- The lines are put in another order. -/
  | permuted {ls ls' : List (List Char)} : ls.Perm ls' → Reworded ls ls'

section Gap

variable {indent key : List Char} {b : Char}

theorem said_key (hkey : IsWord key) :
    (Entry.mk 0 key).said = (false, String.ofList key, String.ofList []) := by
  have htake : key.takeWhile (!isBlank ·) = key :=
    List.takeWhile_eq_self_iff.mpr fun c hc ↦ by rw [hkey.2 c hc]; rfl
  have hdrop : key.dropWhile (!isBlank ·) = [] :=
    List.dropWhile_eq_nil_iff.mpr fun c hc ↦ by rw [hkey.2 c hc]; rfl
  have hvalue : key.any isBlank = false := by simpa using hkey.2
  rw [Entry.said, Entry.hasValue, Entry.key, Entry.value, htake, hdrop, hvalue]
  rfl

theorem said_key_value (hkey : IsWord key) (hb : isBlank b = true) (value : List Char) :
    (Entry.mk 0 (key ++ b :: value)).said =
      (true, String.ofList key, String.ofList (trim value)) := by
  have hword : ∀ c ∈ key, (!isBlank c) = true := fun c hc ↦ by rw [hkey.2 c hc]; rfl
  have htake : (key ++ b :: value).takeWhile (!isBlank ·) = key := by
    rw [List.takeWhile_append_of_pos hword, List.takeWhile_cons_of_neg (by simp [hb]),
      List.append_nil]
  have hdrop : (key ++ b :: value).dropWhile (!isBlank ·) = b :: value := by
    rw [List.dropWhile_append_of_pos hword, List.dropWhile_cons_of_neg (by simp [hb])]
  have hvalue : (key ++ b :: value).any isBlank = true := by simp [hb]
  have hblank : AllBlank [b] := List.forall_mem_singleton.mpr hb
  rw [Entry.said, Entry.hasValue, Entry.key, Entry.value, htake, hdrop, hvalue,
    ← List.singleton_append, trim_eq, trimStart_append_of_blank hblank, ← trim_eq]

/-- A line with a key says what its key is, and the value is what else it has. -/
theorem lineSays_key (hindent : AllBlank indent) (hkey : IsWord key) (hb : isBlank b = true)
    (rest : List Char) : lineSays (indent ++ (key ++ b :: rest)) =
      if isEntry key then [(!rest.all isBlank, String.ofList key, String.ofList (trim rest))]
      else [] := by
  have htrim : trim (indent ++ (key ++ b :: rest)) = key ++ trimEnd (b :: rest) := by
    rw [trim_eq, trimStart_append_of_blank hindent, ← trim_eq, trim_word_append hkey]
  have hentry : isEntry (key ++ trimEnd (b :: rest)) = isEntry key := by
    obtain ⟨c, cs, rfl⟩ := List.exists_cons_of_ne_nil hkey.1
    rfl
  rw [lineSays, htrim, hentry]
  refine ite_congr rfl (fun _ ↦ congrArg (List.cons · []) ?_) fun _ ↦ rfl
  by_cases hrest : AllBlank rest
  · have hblank : AllBlank (b :: rest) := List.forall_mem_cons.mpr ⟨hb, hrest⟩
    rw [trimEnd_eq_nil_iff.mpr hblank, List.append_nil, said_key hkey, trim_eq,
      trimStart_of_blank hrest, List.all_eq_true.mpr hrest]
    rfl
  · have hall : rest.all isBlank = false := by
      rw [← Bool.not_eq_true, List.all_eq_true]
      exact hrest
    rw [← List.singleton_append, trimEnd_append_of_not_blank hrest, List.singleton_append,
      said_key_value hkey hb, trim_trimEnd, hall]
    rfl

end Gap

theorem Padded.lineSays_eq {line line' : List Char} (h : Padded line line') :
    lineSays line = lineSays line' := by
  cases h with
  | ends line hbefore hafter => rw [lineSays, lineSays, trim_padded hbefore hafter]
  | @gap indent key gap b rest hindent hkey hb hgap =>
    have htrim : trim (gap ++ rest) = trim rest := by
      rw [trim_eq, trimStart_append_of_blank hgap, ← trim_eq]
    rw [lineSays_key hindent hkey hb, lineSays_key hindent hkey hb, htrim, List.all_append,
      List.all_eq_true.mpr hgap, Bool.true_and]

theorem Reworded.sayAlike {ls ls' : List (List Char)} (h : Reworded ls ls') (n : ℕ) :
    SayAlike (entriesFrom n ls) (entriesFrom n ls') := by
  rw [SayAlike, map_said_entriesFrom, map_said_entriesFrom]
  cases h with
  | silent ls ls' h => simp [lineSays, h]
  | padded ls ls' h => simp [h.lineSays_eq]
  | permuted h => exact h.flatMap_right lineSays

theorem sayAlike_of_reworded {ls ls' : List (List Char)} (h : Relation.EqvGen Reworded ls ls')
    (n : ℕ) : SayAlike (entriesFrom n ls) (entriesFrom n ls') := by
  induction h with
  | rel _ _ h => exact h.sayAlike n
  | refl => exact List.Perm.refl _
  | symm _ _ _ ih => exact List.Perm.symm ih
  | trans _ _ _ _ _ ih ih' => exact List.Perm.trans ih ih'

/-- The description with the given lines. -/
def ofLines (ls : List (List Char)) : String := String.ofList (unlines ls)

theorem entries_ofLines {ls : List (List Char)} (h : ∀ line ∈ ls, '\n' ∉ line) :
    entries (ofLines ls) = entriesFrom 1 ls := by
  rw [entries, ofLines, String.toList_ofList, ← entriesFrom_lines]
  cases ls with
  | nil => rfl
  | cons line ls => rw [lines_unlines h]

theorem parse_reworded {ls ls' : List (List Char)} (hls : ∀ line ∈ ls, '\n' ∉ line)
    (hls' : ∀ line ∈ ls', '\n' ∉ line) (h : Relation.EqvGen Reworded ls ls') :
    parse (ofLines ls) = .ok p ↔ parse (ofLines ls') = .ok p := by
  have hsay := sayAlike_of_reworded h 1
  rw [parse_eq_ok_iff, parse_eq_ok_iff, entries_ofLines hls, entries_ofLines hls']
  exact and_congr_left fun _ ↦ ⟨hsay.describes, hsay.symm.describes⟩

/-! ## The description of parameters -/

/-- The description that gives both parameters. -/
def describe (p : Parameters) : List (List Char) :=
  ["curve ".toList ++ p.curve.name.toList, "hash_domain ".toList ++ p.hashDomain.toList]

theorem isWord_hashDomain (h : p.validate = .ok ()) : IsWord p.hashDomain.toList := by
  rw [validate] at h
  split_ifs at h with hempty hgraphic
  refine ⟨fun hnil ↦ hempty (String.toList_eq_nil_iff.mp hnil), fun c hc ↦ ?_⟩
  have hc : isGraphic c = true := by
    simp only [Bool.not_eq_true', Bool.not_eq_false, List.all_eq_true] at hgraphic
    exact hgraphic c hc
  simp only [isGraphic, Bool.and_eq_true, decide_eq_true_eq] at hc
  simp only [isBlank, Bool.or_eq_false_iff, Bool.and_eq_false_iff, decide_eq_false_iff_not,
    beq_eq_false_iff_ne]
  omega

theorem trim_word {word : List Char} (h : IsWord word) : trim word = word := by
  rw [← List.append_nil word, trim_word_append h]
  rfl

theorem lineSays_key_value {key value : List Char} (hkey : IsWord key) (hentry : isEntry key = true)
    (hvalue : IsWord value) :
    lineSays (key ++ ' ' :: value) = [(true, String.ofList key, String.ofList value)] := by
  have hall : value.all isBlank = false := by
    obtain ⟨c, cs, rfl⟩ := List.exists_cons_of_ne_nil hvalue.1
    rw [List.all_cons, hvalue.2 c List.mem_cons_self, Bool.false_and]
  have hindent : AllBlank [] := List.forall_mem_nil _
  have hblank : isBlank ' ' = true := rfl
  have hline := lineSays_key hindent hkey hblank value
  rwa [List.nil_append, if_pos hentry, trim_word hvalue, hall] at hline

theorem feed_not_mem {word : List Char} (h : IsWord word) : '\n' ∉ word := fun hmem ↦ by
  have hblank := h.2 '\n' hmem
  contradiction

theorem feed_not_mem_describe (hcurve : IsWord p.curve.name.toList)
    (hdomain : IsWord p.hashDomain.toList) : ∀ line ∈ p.describe, '\n' ∉ line := by
  have hname := feed_not_mem hcurve
  have hhash := feed_not_mem hdomain
  simp [describe, hname, hhash]

theorem said_describe (hcurve : IsWord p.curve.name.toList)
    (hdomain : IsWord p.hashDomain.toList) : (entriesFrom 1 p.describe).map Entry.said =
      [(true, "curve", p.curve.name), (true, "hash_domain", p.hashDomain)] := by
  have hkeys : IsWord "curve".toList ∧ IsWord "hash_domain".toList := by decide
  have hcurve := lineSays_key_value hkeys.1 rfl hcurve
  have hdomain := lineSays_key_value hkeys.2 rfl hdomain
  rw [String.ofList_toList, String.ofList_toList] at hcurve hdomain
  rw [map_said_entriesFrom, describe, List.flatMap_cons, List.flatMap_singleton]
  exact congrArg₂ (· ++ ·) hcurve hdomain

theorem spells_name (curve : CurveName) : CurveName.Spells curve.name curve.name := by
  cases curve
  decide

theorem describes_of_said (hsaid : es.map Entry.said =
    [(true, "curve", p.curve.name), (true, "hash_domain", p.hashDomain)]) : Describes es p := by
  obtain ⟨e, _, rfl, he, hsaid⟩ := List.map_eq_cons_iff.mp hsaid
  obtain ⟨d, _, rfl, hd, hsaid⟩ := List.map_eq_cons_iff.mp hsaid
  obtain rfl := List.map_eq_nil_iff.mp hsaid
  obtain ⟨hevalue, hekey, hename⟩ : e.hasValue = true ∧ e.key = "curve" ∧ e.value = p.curve.name :=
    by simpa [Entry.said] using he
  obtain ⟨hdvalue, hdkey, hdname⟩ :
      d.hasValue = true ∧ d.key = "hash_domain" ∧ d.value = p.hashDomain := by
    simpa [Entry.said] using hd
  have hcurve : e.givesCurve = true ∧ d.givesCurve = false := by
    simp [Entry.givesCurve, hekey, hdkey]
  have hdomain : e.givesDomain = false ∧ d.givesDomain = true := by
    simp [Entry.givesDomain, hekey, hdkey]
  have hnames : e.NamesCurve := by
    rw [Entry.NamesCurve, hename]
    cases p.curve
    exact .inl (spells_name .bls12381)
  refine ⟨?_, ⟨by cases p.curve; rfl, e, ?_, hnames⟩, .inr ⟨d, ?_, hdname.symm⟩⟩
  · simp [hevalue, hdvalue, hcurve, hdomain]
  · simp [hcurve]
  · simp [hdomain]

/-- The description of valid parameters is accepted, with these parameters. -/
theorem parse_describe (h : p.validate = .ok ()) : parse (ofLines p.describe) = .ok p := by
  have hdomain := isWord_hashDomain h
  have hcurve : IsWord p.curve.name.toList := by
    cases p.curve
    decide
  rw [parse_eq_ok_iff, entries_ofLines (feed_not_mem_describe hcurve hdomain)]
  exact ⟨describes_of_said (said_describe hcurve hdomain), h⟩

/-- Descriptions are read exactly: a description is accepted if it describes valid parameters, and
otherwise it is refused for its first offence, and without one for what it leaves out or for
parameters that are not valid. Putting in silent lines, padding and reordering the lines of an
accepted description changes nothing, and the description of valid parameters is read back. -/
theorem parse_exact :
    (∀ text p, parse text = .ok p ↔ Describes (entries text) p ∧ p.validate = .ok ()) ∧
      (∀ text reason, parse text = .error reason ↔
        FirstOffence (entries text) reason ∨
          (Inoffensive (entries text) ∧ (∀ e ∈ entries text, e.givesCurve = false) ∧
            reason = .missingCurve) ∨
          ∃ p, Describes (entries text) p ∧ p.validate = .error reason) ∧
      (∀ ls ls', (∀ line ∈ ls, '\n' ∉ line) → (∀ line ∈ ls', '\n' ∉ line) →
        Relation.EqvGen Reworded ls ls' →
        ∀ p, parse (ofLines ls) = .ok p ↔ parse (ofLines ls') = .ok p) ∧
      ∀ p : Parameters, p.validate = .ok () → parse (ofLines p.describe) = .ok p :=
  ⟨fun _ _ ↦ parse_eq_ok_iff, fun _ _ ↦ parse_eq_error_iff,
    fun _ _ hls hls' h _ ↦ parse_reworded hls hls' h, fun _ h ↦ parse_describe h⟩

/-- The default parameters are read back from their description with its lines exchanged, one of
them padded and a comment put before it. Capital letters and an underscore name the curve too, and a
name of no curve is shown as it is looked up. A key that is not known offends in the second line. -/
theorem parse_exact_default :
    parse (ofLines ["# hashing".toList, "hash_domain \tPAIRING-ARITH-V01".toList,
        "curve bls12-381".toList]) = .ok default ∧
      parse "# app parameters\n\ntype BLS12_381\nhash_domain X-V2\n" = .ok ⟨.bls12381, "X-V2"⟩ ∧
      parse "curve BN_254" = .error (.unknownCurve "bn-254") ∧
      parse "curve bls12-381\nprime 7\n" = .error (.unknownKey 2 "prime") := by
  obtain ⟨hok, herror, hreworded, hdescribe⟩ := parse_exact
  refine ⟨?_, ?_, ?_, ?_⟩
  · have hkey : IsWord "hash_domain".toList := by decide
    have hpadded : Padded "hash_domain PAIRING-ARITH-V01".toList
        "hash_domain \tPAIRING-ARITH-V01".toList :=
      .gap "PAIRING-ARITH-V01".toList (List.forall_mem_nil _) hkey (rfl : isBlank ' ' = true)
        (List.forall_mem_singleton.mpr (rfl : isBlank '\t' = true))
    have hsilent : isEntry (trim "# hashing".toList) = false := rfl
    have hexchanged := Reworded.permuted (.swap "hash_domain PAIRING-ARITH-V01".toList
      "curve bls12-381".toList [])
    have hlines := (Relation.EqvGen.rel _ _ hexchanged).trans _ _ _
      ((Relation.EqvGen.rel _ _ (Reworded.padded [] _ hpadded)).trans _ _ _
        (.rel _ _ (Reworded.silent [] _ hsilent)))
    exact (hreworded _ _ (by decide) (by decide) hlines default).mp (hdescribe default rfl)
  · let curve : Entry := ⟨3, "type BLS12_381".toList⟩
    let domain : Entry := ⟨4, "hash_domain X-V2".toList⟩
    have hnames : curve.NamesCurve := .inl (by decide)
    have hdescribes : Describes [curve, domain] ⟨.bls12381, "X-V2"⟩ :=
      ⟨by decide, ⟨rfl, curve, rfl, hnames⟩, .inr ⟨domain, rfl, rfl⟩⟩
    exact (hok _ _).mpr ⟨hdescribes, rfl⟩
  · have hunknown : Entry.Offends [] ⟨1, "curve BN_254".toList⟩ (.unknownCurve "bn-254") :=
      .unknownCurve rfl rfl (by decide) (by decide)
    have hnone : Inoffensive [] := inoffensive_iff.mpr ⟨by simp, by simp, by simp⟩
    exact (herror _ _).mpr (.inl ⟨[], _, [], rfl, hnone, hunknown⟩)
  · have hfirst : Inoffensive [⟨1, "curve bls12-381".toList⟩] :=
      inoffensive_iff.mpr ⟨by decide, by decide, by decide⟩
    exact (herror _ _).mpr (.inl ⟨_, ⟨2, "prime 7".toList⟩, [], rfl, hfirst,
      .unknownKey rfl rfl rfl⟩)

end BilinearGroups.Parameters
