import BilinearGroups.Proofs.Json.Strings

/-!
# Numbers are read

Every number of the grammar is read as a whole if what follows it cannot continue it. What follows a
value in a list or an object is `Delimited`: a blank, or one of the characters after a value.
-/

namespace BilinearGroups.Json

variable {c : Char} {cs ds ws v rest : List Char}

/-! ## Blanks -/

theorem skipBlanks_append (h : Blanks ws) (cs : List Char) :
    skipBlanks (ws ++ cs) = skipBlanks cs := List.dropWhile_append_of_pos h

theorem skipBlanks_cons (h : isBlank c = false) (cs : List Char) :
    skipBlanks (c :: cs) = c :: cs := List.dropWhile_cons_of_neg (by simp [h])

theorem skipBlanks_skipBlanks (cs : List Char) : skipBlanks (skipBlanks cs) = skipBlanks cs := by
  induction cs with
  | nil => rfl
  | cons c cs ih =>
    cases h : isBlank c with
    | true =>
      have hcons : skipBlanks (c :: cs) = skipBlanks cs := List.dropWhile_cons_of_pos h
      rw [hcons, ih]
    | false => rw [skipBlanks_cons h, skipBlanks_cons h]

/-- Blanks are skipped up to a character that is not blank. -/
theorem skipBlanks_append_cons (h : Blanks ws) (hc : isBlank c = false) (cs : List Char) :
    skipBlanks (ws ++ c :: cs) = c :: cs := by rw [skipBlanks_append h, skipBlanks_cons hc]

/-- What follows a value cannot continue a number. -/
def Delimited (rest : List Char) : Prop := ∀ c ∈ rest.head?, isBlank c = true ∨ c ∈ [',', ']', '}']

theorem Delimited.head_ne (h : Delimited (c :: cs)) :
    c.isDigit = false ∧ c ≠ '.' ∧ ¬ (c = 'e' ∨ c = 'E') := by
  have hc : c ∈ [' ', '\n', '\t', '\r', ',', ']', '}'] := by
    have hhead := h c rfl
    simp only [isBlank, Bool.or_eq_true, beq_iff_eq, List.mem_cons, List.not_mem_nil] at hhead ⊢
    tauto
  have hall : ∀ c ∈ [' ', '\n', '\t', '\r', ',', ']', '}'],
    c.isDigit = false ∧ c ≠ '.' ∧ ¬ (c = 'e' ∨ c = 'E') := by simp
  exact hall c hc

theorem Padded.delimited (x : Padded) (hc : c ∈ [',', ']', '}']) (cs : List Char) :
    Delimited (x.after ++ c :: cs) := by
  intro d hd
  have hblanks := x.blanks_after
  cases hafter : x.after with
  | nil =>
    rw [hafter] at hd
    cases hd
    exact .inr hc
  | cons b bs =>
    rw [hafter] at hd hblanks
    cases hd
    exact .inl (hblanks _ List.mem_cons_self)

/-! ## Numbers -/

theorem digits_append (hds : ∀ d ∈ ds, d.isDigit = true)
    (hrest : ∀ c ∈ rest.head?, c.isDigit = false) :
    Number.digits (ds ++ rest) = (ds.map Number.digitValue, rest) := by
  rw [Number.digits, List.takeWhile_append_of_pos hds, List.dropWhile_append_of_pos hds]
  cases rest with
  | nil => rw [List.takeWhile_nil, List.append_nil, List.dropWhile_nil]
  | cons c cs =>
    have hc : ¬ c.isDigit = true := by simp [hrest c rfl]
    rw [List.takeWhile_cons_of_neg hc, List.append_nil, List.dropWhile_cons_of_neg hc]

theorem Delimited.not_isDigit (h : Delimited rest) : ∀ c ∈ rest.head?, c.isDigit = false := by
  intro c hc
  cases rest with
  | nil => cases hc
  | cons d cs =>
    cases hc
    exact h.head_ne.1

theorem exponentPart?_delimited (h : Delimited rest) :
    Number.exponentPart? rest = some (false, [], rest) := by
  cases rest with
  | nil => rfl
  | cons c cs =>
    unfold Number.exponentPart?
    exact if_neg h.head_ne.2.2

theorem ExponentText.exponentPart? (h : ExponentText cs) (hrest : Delimited rest) :
    ∃ negative ds, Number.exponentPart? (cs ++ rest) = some (negative, ds, rest) := by
  cases h with
  | none => exact ⟨false, [], exponentPart?_delimited hrest⟩
  | @digits e sign ds he hsign hds =>
    obtain ⟨hne, hds⟩ := hds
    have hdigits := digits_append hds hrest.not_isDigit
    obtain ⟨d, ds, rfl⟩ := List.exists_cons_of_ne_nil hne
    -- Without a sign the first digit must not be taken for one.
    have hd : d ≠ '+' ∧ d ≠ '-' := by
      have hdigit := hds d List.mem_cons_self
      constructor <;>
      · rintro rfl
        cases hdigit
    rw [List.cons_append, List.map_cons] at hdigits
    simp only [List.mem_cons, List.not_mem_nil, or_false] at hsign
    obtain rfl | rfl | rfl := hsign
    · exact ⟨false, (d :: ds).map Number.digitValue, by
        simp [Number.exponentPart?, he, hd.1, hd.2, hdigits]⟩
    · exact ⟨false, (d :: ds).map Number.digitValue, by
        simp [Number.exponentPart?, he, hdigits]⟩
    · exact ⟨true, (d :: ds).map Number.digitValue, by
        simp [Number.exponentPart?, he, hdigits]⟩

/-- No text after the whole part of a number continues it with a digit. -/
theorem not_isDigit_of_fraction {fraction exponent : List Char} (hfraction : FractionText fraction)
    (hexponent : ExponentText exponent) (hrest : Delimited rest) :
    ∀ c ∈ (fraction ++ (exponent ++ rest)).head?, c.isDigit = false := by
  intro c hc
  cases hfraction with
  | digits =>
    cases hc
    rfl
  | none =>
    cases hexponent with
    | digits he =>
      cases hc
      obtain rfl | rfl := he <;> rfl
    | none => exact hrest.not_isDigit c hc

theorem not_point_of_exponent {exponent : List Char} (hexponent : ExponentText exponent)
    (hrest : Delimited rest) : ∀ cs, exponent ++ rest ≠ '.' :: cs := by
  intro cs h
  cases hexponent with
  | digits he =>
    cases h
    simp at he
  | none =>
    subst h
    exact hrest.head_ne.2.1 rfl

section Parts

variable {text afterWhole afterFraction : List Char} {n m : ℕ} {ns ms es : List ℕ}
  {exponentNegative : Bool}

/-- A number without a fraction is read from its whole part and its exponent. -/
theorem readUnsigned?_whole (negative : Bool)
    (hwhole : Number.digits text = (n :: ns, afterWhole)) (hzero : n = 0 → ns = [])
    (hpoint : ∀ cs, afterWhole ≠ '.' :: cs)
    (hexponent : Number.exponentPart? afterWhole = some (exponentNegative, es, rest)) :
    Number.readUnsigned? negative text =
      some (⟨negative, n :: ns, [], es != [], exponentNegative, es⟩, rest) := by
  unfold Number.readUnsigned?
  rw [hwhole]
  split
  · next heq => cases heq
  · next heq =>
    cases heq
    cases hzero rfl
  · next heq =>
    cases heq
    exact absurd rfl (hpoint _)
  · next heq =>
    cases heq
    rw [hexponent]
    rfl

/-- A number with a fraction is read from its three parts. -/
theorem readUnsigned?_fraction (negative : Bool)
    (hwhole : Number.digits text = (n :: ns, '.' :: afterWhole)) (hzero : n = 0 → ns = [])
    (hfraction : Number.digits afterWhole = (m :: ms, afterFraction))
    (hexponent : Number.exponentPart? afterFraction = some (exponentNegative, es, rest)) :
    Number.readUnsigned? negative text =
      some (⟨negative, n :: ns, m :: ms, true, exponentNegative, es⟩, rest) := by
  unfold Number.readUnsigned?
  rw [hwhole]
  split
  · next heq => cases heq
  · next heq =>
    cases heq
    cases hzero rfl
  · next heq =>
    cases heq
    rw [hfraction]
    dsimp only
    rw [hexponent]
    rfl
  · next hpoint heq =>
    cases heq
    exact (hpoint _ rfl).elim

end Parts

theorem toNat_of_isDigit (h : c.isDigit = true) : 48 ≤ c.toNat ∧ c.toNat ≤ 57 := by
  simpa [Char.isDigit, UInt32.le_iff_toNat_le] using h

/-- The first digit of a whole part is zero only if it is the last. -/
theorem WholeText.exists_digits {whole : List Char} (h : WholeText whole) :
    ∃ n ns, whole.map Number.digitValue = n :: ns ∧ (n = 0 → ns = []) := by
  cases h with
  | zero => exact ⟨0, [], rfl, fun _ ↦ rfl⟩
  | @digits c cs hne hcs =>
    refine ⟨_, _, rfl, fun hvalue ↦ ?_⟩
    have hc := toNat_of_isDigit (hcs.2 c List.mem_cons_self)
    have hzero : c.toNat = '0'.toNat := by
      rw [Number.digitValue] at hvalue
      show c.toNat = 48
      omega
    exact absurd (Char.toNat_inj.mp hzero) hne

theorem WholeText.digits_append {whole : List Char} (h : WholeText whole)
    (hrest : ∀ c ∈ rest.head?, c.isDigit = false) :
    Number.digits (whole ++ rest) = (whole.map Number.digitValue, rest) := by
  cases h with
  | zero => exact Json.digits_append (List.forall_mem_singleton.mpr rfl) hrest
  | digits _ hcs => exact Json.digits_append hcs.2 hrest

theorem readUnsigned?_append {whole fraction exponent : List Char} (negative : Bool)
    (hwhole : WholeText whole) (hfraction : FractionText fraction)
    (hexponent : ExponentText exponent) (hrest : Delimited rest) :
    ∃ x, Number.readUnsigned? negative (whole ++ (fraction ++ (exponent ++ rest))) =
      some (x, rest) := by
  have hdigits := hwhole.digits_append (not_isDigit_of_fraction hfraction hexponent hrest)
  obtain ⟨n, ns, hmap, hzero⟩ := hwhole.exists_digits
  rw [hmap] at hdigits
  obtain ⟨exponentNegative, es, hes⟩ := hexponent.exponentPart? hrest
  cases hfraction with
  | none =>
    rw [List.nil_append] at hdigits ⊢
    have hpoint := not_point_of_exponent hexponent hrest
    exact ⟨_, readUnsigned?_whole negative hdigits hzero hpoint hes⟩
  | @digits ds hds =>
    obtain ⟨d, ds, rfl⟩ := List.exists_cons_of_ne_nil hds.1
    have hnext := not_isDigit_of_fraction .none hexponent hrest
    have hfraction := digits_append hds.2 hnext
    exact ⟨_, readUnsigned?_fraction negative hdigits hzero hfraction hes⟩

theorem WholeText.exists_cons (h : WholeText v) : ∃ c cs, v = c :: cs ∧ c.isDigit = true := by
  cases h with
  | zero => exact ⟨_, _, rfl, rfl⟩
  | digits _ hcs => exact ⟨_, _, rfl, hcs.2 _ List.mem_cons_self⟩

theorem NumberText.exists_cons (h : NumberText v) :
    ∃ c cs, v = c :: cs ∧ (c = '-' ∨ c.isDigit = true) := by
  obtain ⟨hsign, hwhole, -, -⟩ := h
  obtain ⟨c, cs, rfl, hc⟩ := hwhole.exists_cons
  simp only [List.mem_cons, List.not_mem_nil, or_false] at hsign
  obtain rfl | rfl := hsign
  · exact ⟨_, _, rfl, .inr hc⟩
  · exact ⟨_, _, rfl, .inl rfl⟩

theorem read?_of_isDigit (h : c.isDigit = true) (cs : List Char) :
    Number.read? (c :: cs) = Number.readUnsigned? false (c :: cs) := by
  unfold Number.read?
  split
  · next heq =>
    cases heq
    cases h
  · rfl

theorem NumberText.read? (h : NumberText v) (hrest : Delimited rest) :
    ∃ x, Number.read? (v ++ rest) = some (x, rest) := by
  obtain ⟨hsign, hwhole, hfraction, hexponent⟩ := h
  have hread (negative : Bool) :=
    readUnsigned?_append negative hwhole hfraction hexponent hrest
  simp only [List.mem_cons, List.not_mem_nil, or_false] at hsign
  rw [List.append_assoc, List.append_assoc, List.append_assoc]
  obtain rfl | rfl := hsign
  · obtain ⟨c, cs, rfl, hc⟩ := hwhole.exists_cons
    rw [List.nil_append, List.cons_append, read?_of_isDigit hc]
    exact hread false
  · exact hread true

/-- A whole part alone is read as its digits. -/
theorem WholeText.read? (h : WholeText v) (hrest : Delimited rest) : Number.read? (v ++ rest) =
    some (⟨false, v.map Number.digitValue, [], false, false, []⟩, rest) := by
  have hdigits := h.digits_append hrest.not_isDigit
  have hpoint := not_point_of_exponent .none hrest
  obtain ⟨n, ns, hmap, hzero⟩ := h.exists_digits
  obtain ⟨c, cs, rfl, hc⟩ := h.exists_cons
  rw [hmap] at hdigits ⊢
  rw [List.cons_append] at hdigits ⊢
  rw [read?_of_isDigit hc]
  exact readUnsigned?_whole false hdigits hzero hpoint (exponentPart?_delimited hrest)

end BilinearGroups.Json
