import BilinearGroups.Proofs.Json.Numbers

/-!
# Values are skipped

Every value of the grammar is skipped as a whole, whatever follows it, as long as a number is not
followed by what could continue it. The recursion of skipping is bounded by the length of the text,
and a value never uses up more than two steps for each of its characters.
-/

namespace BilinearGroups.Json

variable {c : Char} {cs ds ws v rest : List Char} {fuel : ℕ}

/-! ## What skipping does -/

/-- Blanks before a value make no difference. -/
theorem skipValue?_skipBlanks (fuel : ℕ) (cs : List Char) :
    skipValue? fuel (skipBlanks cs) = skipValue? fuel cs := by
  cases fuel with
  | zero => rfl
  | succ fuel => rw [skipValue?, skipValue?, skipBlanks_skipBlanks]

theorem skipValue?_append (h : Blanks ws) (fuel : ℕ) (cs : List Char) :
    skipValue? fuel (ws ++ cs) = skipValue? fuel cs := by
  rw [← skipValue?_skipBlanks, skipBlanks_append h, skipValue?_skipBlanks]

theorem skipElements?_skipBlanks (fuel : ℕ) (cs : List Char) :
    skipElements? fuel (skipBlanks cs) = skipElements? fuel cs := by
  cases fuel with
  | zero => rfl
  | succ fuel => rw [skipElements?, skipElements?, skipValue?_skipBlanks]

theorem skipMembers?_skipBlanks (fuel : ℕ) (cs : List Char) :
    skipMembers? fuel (skipBlanks cs) = skipMembers? fuel cs := by
  cases fuel with
  | zero => rfl
  | succ fuel => rw [skipMembers?, skipMembers?, skipBlanks_skipBlanks]

/-- A number does not start like any other value. -/
theorem not_mem_of_number (hc : c = '-' ∨ c.isDigit = true) :
    c ∉ [' ', '\n', '\t', '\r', '[', '{', '"', 'n', 't', 'f', ']', '}'] := by
  have hall : ∀ d ∈ [' ', '\n', '\t', '\r', '[', '{', '"', 'n', 't', 'f', ']', '}'],
    ¬ (d = '-' ∨ d.isDigit = true) := by simp
  exact fun h ↦ hall c h hc

theorem skipValue?_number (hc : c = '-' ∨ c.isDigit = true) (fuel : ℕ) (cs : List Char) :
    skipValue? (fuel + 1) (c :: cs) = (Number.read? (c :: cs)).map Prod.snd := by
  have hne := not_mem_of_number hc
  simp only [List.mem_cons, List.not_mem_nil, or_false, not_or] at hne
  have hblank : isBlank c = false := by simp [isBlank, hne]
  simp [skipValue?, skipBlanks_cons hblank, hne]

theorem skipValue?_list (h : skipBlanks cs = c :: ds) (hc : c ≠ ']') (fuel : ℕ) :
    skipValue? (fuel + 1) ('[' :: cs) = skipElements? fuel cs := by
  have hlist : skipBlanks ('[' :: cs) = '[' :: cs := rfl
  rw [← skipElements?_skipBlanks fuel cs]
  simp only [skipValue?, hlist]
  rw [h]
  split
  · next heq => exact absurd (List.cons.inj heq).1 hc
  · rfl

theorem skipValue?_emptyList (h : skipBlanks cs = ']' :: ds) (fuel : ℕ) :
    skipValue? (fuel + 1) ('[' :: cs) = some ds := by
  have hlist : skipBlanks ('[' :: cs) = '[' :: cs := rfl
  simp only [skipValue?, hlist]
  rw [h]
  rfl

theorem skipElements?_next (hvalue : skipValue? fuel cs = some ds)
    (hcomma : skipBlanks ds = ',' :: rest) :
    skipElements? (fuel + 1) cs = skipElements? fuel rest := by
  rw [skipElements?, hvalue]
  simp only [Option.bind_eq_bind, Option.bind_some, hcomma]

theorem skipElements?_last (hvalue : skipValue? fuel cs = some ds)
    (hend : skipBlanks ds = ']' :: rest) : skipElements? (fuel + 1) cs = some rest := by
  rw [skipElements?, hvalue]
  simp only [Option.bind_eq_bind, Option.bind_some, hend]

theorem skipValue?_object (h : skipBlanks cs = c :: ds) (hc : c ≠ '}') (fuel : ℕ) :
    skipValue? (fuel + 1) ('{' :: cs) = skipMembers? fuel cs := by
  have hobject : skipBlanks ('{' :: cs) = '{' :: cs := rfl
  rw [← skipMembers?_skipBlanks fuel cs]
  simp only [skipValue?, hobject]
  rw [h]
  split
  · next heq => exact absurd (List.cons.inj heq).1 hc
  · rfl

theorem skipValue?_emptyObject (h : skipBlanks cs = '}' :: ds) (fuel : ℕ) :
    skipValue? (fuel + 1) ('{' :: cs) = some ds := by
  have hobject : skipBlanks ('{' :: cs) = '{' :: cs := rfl
  simp only [skipValue?, hobject]
  rw [h]
  rfl

theorem skipMembers?_next {ks vs : List Char} {ps : List Piece}
    (hkey : skipBlanks cs = '"' :: ks) (hpieces : pieces? ks = some (ps, ds))
    (hcolon : skipBlanks ds = ':' :: vs) {after : List Char}
    (hvalue : skipValue? fuel vs = some after) (hcomma : skipBlanks after = ',' :: rest) :
    skipMembers? (fuel + 1) cs = skipMembers? fuel rest := by
  rw [skipMembers?, hkey]
  simp only [hpieces, Option.bind_eq_bind, Option.bind_some, hcolon, hvalue, hcomma]

theorem skipMembers?_last {ks vs : List Char} {ps : List Piece}
    (hkey : skipBlanks cs = '"' :: ks) (hpieces : pieces? ks = some (ps, ds))
    (hcolon : skipBlanks ds = ':' :: vs) {after : List Char}
    (hvalue : skipValue? fuel vs = some after) (hend : skipBlanks after = '}' :: rest) :
    skipMembers? (fuel + 1) cs = some rest := by
  rw [skipMembers?, hkey]
  simp only [hpieces, Option.bind_eq_bind, Option.bind_some, hcolon, hvalue, hend]

/-! ## Values -/

/-- The value is skipped with two steps for each of its characters. -/
def Skips (v : List Char) : Prop :=
  ∀ fuel rest, 2 * v.length ≤ fuel → Delimited rest → skipValue? fuel (v ++ rest) = some rest

theorem Skips.padded {x : Padded} (h : Skips x.text) (hfuel : 2 * x.render.length ≤ fuel)
    (hc : c ∈ [',', ']', '}']) (cs : List Char) :
    skipValue? fuel (x.render ++ c :: cs) = some (x.after ++ c :: cs) := by
  have hlength : x.text.length ≤ x.render.length := by
    rw [Padded.render, List.length_append, List.length_append]
    omega
  rw [Padded.render, List.append_assoc, List.append_assoc, skipValue?_append x.blanks_before]
  exact h fuel _ (by omega) (x.delimited hc cs)

theorem skipElements?_append (h : Blanks ws) (fuel : ℕ) (cs : List Char) :
    skipElements? fuel (ws ++ cs) = skipElements? fuel cs := by
  rw [← skipElements?_skipBlanks, skipBlanks_append h, skipElements?_skipBlanks]

theorem skipMembers?_append (h : Blanks ws) (fuel : ℕ) (cs : List Char) :
    skipMembers? fuel (ws ++ cs) = skipMembers? fuel cs := by
  rw [← skipMembers?_skipBlanks, skipBlanks_append h, skipMembers?_skipBlanks]

theorem separated_cons_cons (x y : List Char) (xs : List (List Char)) :
    separated (x :: y :: xs) = x ++ ',' :: separated (y :: xs) := rfl

/-- After the first item of a list or an object the others follow, each after a comma. -/
theorem separated_cons (x : List Char) (xs : List (List Char)) :
    separated (x :: xs) = x ++ xs.flatMap (',' :: ·) := by
  induction xs generalizing x with
  | nil => exact (List.append_nil x).symm
  | cons y ys ih => rw [separated_cons_cons, ih, List.flatMap_cons, List.cons_append]

theorem skipElements?_items {x : Padded} {xs : List Padded} (h : ∀ y ∈ x :: xs, Skips y.text)
    (hfuel : 2 * (separated ((x :: xs).map Padded.render)).length < fuel) (rest : List Char) :
    skipElements? fuel (separated ((x :: xs).map Padded.render) ++ ']' :: rest) = some rest := by
  obtain ⟨fuel, rfl⟩ := Nat.exists_eq_add_one.mpr (Nat.zero_lt_of_lt hfuel)
  rw [List.forall_mem_cons] at h
  -- Each item takes one step besides its own, and the comma after it makes up for it.
  induction xs generalizing x fuel with
  | nil =>
    have hvalue : skipValue? fuel (x.render ++ ']' :: rest) = some (x.after ++ ']' :: rest) :=
      h.1.padded (Nat.lt_succ_iff.mp hfuel) (by simp) rest
    exact skipElements?_last hvalue (skipBlanks_append_cons x.blanks_after rfl rest)
  | cons y ys ih =>
    rw [List.map_cons, List.map_cons, separated_cons_cons, ← List.map_cons] at hfuel ⊢
    rw [List.length_append, List.length_cons] at hfuel
    rw [List.append_assoc, List.cons_append]
    have hvalue (cs : List Char) : skipValue? fuel (x.render ++ ',' :: cs) =
        some (x.after ++ ',' :: cs) := h.1.padded (by omega) (by simp) cs
    rw [skipElements?_next (hvalue _) (skipBlanks_append_cons x.blanks_after rfl _)]
    obtain ⟨fuel, rfl⟩ : ∃ k, fuel = k + 1 := Nat.exists_eq_add_one.mpr (by omega)
    exact ih (List.forall_mem_cons.mp h.2) fuel (by omega)

/-- The name of a member is passed over up to its value. -/
theorem Member.skips_key (m : Member) (h : StringText m.key.text) (cs : List Char) :
    ∃ ks ps ds, skipBlanks (m.render ++ cs) = '"' :: ks ∧ pieces? ks = some (ps, ds) ∧
      skipBlanks ds = ':' :: (m.value.render ++ cs) := by
  obtain ⟨ps, hps⟩ := h.pieces? (m.key.after ++ ':' :: (m.value.render ++ cs))
  refine ⟨_, ps, _, ?_, hps, skipBlanks_append_cons m.key.blanks_after rfl _⟩
  have hrender : m.render ++ cs = m.key.before ++ '"' :: (m.key.text ++
      '"' :: (m.key.after ++ ':' :: (m.value.render ++ cs))) := by simp [render]
  rw [hrender, skipBlanks_append_cons m.key.blanks_before rfl]

theorem Member.length_value_le (m : Member) : m.value.render.length ≤ m.render.length := by
  simp only [render, List.length_append, List.length_cons]
  omega

theorem skipMembers?_members {m : Member} {ms : List Member}
    (hkeys : ∀ m' ∈ m :: ms, StringText m'.key.text)
    (hvalues : ∀ m' ∈ m :: ms, Skips m'.value.text)
    (hfuel : 2 * (separated ((m :: ms).map Member.render)).length < fuel) (rest : List Char) :
    skipMembers? fuel (separated ((m :: ms).map Member.render) ++ '}' :: rest) = some rest := by
  obtain ⟨fuel, rfl⟩ := Nat.exists_eq_add_one.mpr (Nat.zero_lt_of_lt hfuel)
  rw [List.forall_mem_cons] at hkeys hvalues
  induction ms generalizing m fuel with
  | nil =>
    have hfuel' : 2 * m.render.length ≤ fuel := Nat.lt_succ_iff.mp hfuel
    have hvalue : skipValue? fuel (m.value.render ++ '}' :: rest) =
        some (m.value.after ++ '}' :: rest) :=
      hvalues.1.padded (by have := m.length_value_le; omega) (by simp) rest
    obtain ⟨ks, ps, ds, hkey, hpieces, hcolon⟩ := m.skips_key hkeys.1 ('}' :: rest)
    exact skipMembers?_last hkey hpieces hcolon hvalue
      (skipBlanks_append_cons m.value.blanks_after rfl rest)
  | cons n ns ih =>
    rw [List.map_cons, List.map_cons, separated_cons_cons, ← List.map_cons] at hfuel ⊢
    rw [List.length_append, List.length_cons] at hfuel
    rw [List.append_assoc, List.cons_append]
    have hvalue (cs : List Char) : skipValue? fuel (m.value.render ++ ',' :: cs) =
        some (m.value.after ++ ',' :: cs) :=
      hvalues.1.padded (by have := m.length_value_le; omega) (by simp) cs
    obtain ⟨ks, ps, ds, hkey, hpieces, hcolon⟩ := m.skips_key hkeys.1
      (',' :: (separated ((n :: ns).map Member.render) ++ '}' :: rest))
    rw [skipMembers?_next hkey hpieces hcolon (hvalue _)
      (skipBlanks_append_cons m.value.blanks_after rfl _)]
    obtain ⟨fuel, rfl⟩ : ∃ k, fuel = k + 1 := Nat.exists_eq_add_one.mpr (by omega)
    exact ih (List.forall_mem_cons.mp hkeys.2) (List.forall_mem_cons.mp hvalues.2) fuel (by omega)

/-- The first character of a value is not blank and closes nothing. -/
theorem ValueText.exists_cons (h : ValueText v) :
    ∃ c cs, v = c :: cs ∧ isBlank c = false ∧ c ≠ ']' ∧ c ≠ '}' := by
  cases h with
  | null | yes | no | string | list | object => exact ⟨_, _, rfl, rfl, by decide, by decide⟩
  | number hnumber =>
    obtain ⟨c, cs, rfl, hc⟩ := hnumber.exists_cons
    have hne := not_mem_of_number hc
    simp only [List.mem_cons, List.not_mem_nil, or_false, not_or] at hne
    exact ⟨c, cs, rfl, by simp [isBlank, hne], by simp [hne], by simp [hne]⟩

/-- A value takes one step at least. -/
theorem skips_cons (h : ∀ fuel rest, 2 * cs.length < fuel → Delimited rest →
    skipValue? (fuel + 1) (c :: (cs ++ rest)) = some rest) : Skips (c :: cs) := by
  intro fuel rest hfuel hrest
  rw [List.length_cons] at hfuel
  obtain ⟨fuel, rfl⟩ : ∃ k, fuel = k + 1 := Nat.exists_eq_add_one.mpr (by omega)
  exact h fuel rest (by omega) hrest

theorem skips_number (h : NumberText v) : Skips v := by
  obtain ⟨c, cs, rfl, hc⟩ := h.exists_cons
  refine skips_cons fun fuel rest _ hrest ↦ ?_
  obtain ⟨x, hx⟩ := h.read? hrest
  rw [List.cons_append] at hx
  rw [skipValue?_number hc, hx]
  rfl

theorem skips_string (h : StringText cs) : Skips ('"' :: (cs ++ ['"'])) := by
  refine skips_cons fun fuel rest _ _ ↦ ?_
  obtain ⟨ps, hps⟩ := h.pieces? rest
  have hskip (ds : List Char) : skipValue? (fuel + 1) ('"' :: ds) = (pieces? ds).map Prod.snd := rfl
  rw [List.append_assoc, List.singleton_append, hskip, hps]
  rfl

theorem skips_list {items : List Padded} (hws : Blanks ws) (hitems : ∀ x ∈ items, ValueText x.text)
    (hskips : ∀ x ∈ items, Skips x.text) : Skips (listText ws items) := by
  refine skips_cons fun fuel rest hfuel _ ↦ ?_
  rw [List.length_append, List.length_append] at hfuel
  rw [List.append_assoc, List.append_assoc, List.singleton_append]
  cases items with
  | nil => exact skipValue?_emptyList (skipBlanks_append_cons hws rfl rest) fuel
  | cons x xs =>
    obtain ⟨c, cs, hcs, hblank, hbracket, -⟩ := (hitems x List.mem_cons_self).exists_cons
    have hstart : skipBlanks (ws ++ (separated ((x :: xs).map Padded.render) ++ ']' :: rest)) =
        c :: (cs ++ (x.after ++ ((xs.map Padded.render).flatMap (',' :: ·) ++ ']' :: rest))) := by
      rw [skipBlanks_append hws, List.map_cons, separated_cons, Padded.render, hcs]
      simp only [List.append_assoc, List.cons_append]
      exact skipBlanks_append_cons x.blanks_before hblank _
    rw [skipValue?_list hstart hbracket, skipElements?_append hws]
    exact skipElements?_items hskips (by omega) rest

theorem skips_object {members : List Member} (hws : Blanks ws)
    (hkeys : ∀ m ∈ members, StringText m.key.text) (hskips : ∀ m ∈ members, Skips m.value.text) :
    Skips (objectText ws members) := by
  refine skips_cons fun fuel rest hfuel _ ↦ ?_
  rw [List.length_append, List.length_append] at hfuel
  rw [List.append_assoc, List.append_assoc, List.singleton_append]
  cases members with
  | nil => exact skipValue?_emptyObject (skipBlanks_append_cons hws rfl rest) fuel
  | cons m ms =>
    obtain ⟨ks, -, -, hstart, -⟩ := m.skips_key (hkeys m List.mem_cons_self)
      ((ms.map Member.render).flatMap (',' :: ·) ++ '}' :: rest)
    rw [← skipBlanks_append hws, ← List.append_assoc m.render, ← separated_cons,
      ← List.map_cons] at hstart
    rw [skipValue?_object hstart (by decide), skipMembers?_append hws]
    exact skipMembers?_members hkeys hskips (by omega) rest

/-- Every value is skipped, with two steps for each of its characters. -/
theorem ValueText.skips (h : ValueText v) : Skips v := by
  induction h with
  | null | yes | no => exact skips_cons fun _ _ _ _ ↦ rfl
  | number h => exact skips_number h
  | string h => exact skips_string h
  | list hws hitems ih => exact skips_list hws hitems ih
  | object hws hkeys _ ih => exact skips_object hws hkeys ih

/-- A value with blanks around it is skipped in a text of any length. -/
theorem ValueText.skip? {x : Padded} (h : ValueText x.text) (hc : c ∈ [',', ']', '}'])
    (cs : List Char) : Json.skip? (x.render ++ c :: cs) = some (x.after ++ c :: cs) := by
  have hlength : x.render.length ≤ (x.render ++ c :: cs).length := by
    rw [List.length_append]
    omega
  exact h.skips.padded (by omega) hc cs

end BilinearGroups.Json
