import Mathlib.Tactic.Common
import BilinearGroups.Proofs.Json.Grammar

/-!
# Strings are read back

A text that spells characters is read as these characters, however each of them is written, and a
string is written as a text that spells it. A string that is only skipped need not spell anything.
-/

namespace BilinearGroups.Json

variable {n : ℕ} {c l : Char} {s cs ds rest : List Char} {ps : List Piece}

/-! ## Hexadecimal digits -/

theorem HexDigit.hexValue? (h : HexDigit n c) : Bytes.hexValue? c = some n := by
  have hlower : ∀ i : Fin lowerDigits.length, Bytes.hexValue? lowerDigits[i] = some i.1 := by decide
  have hupper : ∀ i : Fin upperDigits.length, Bytes.hexValue? upperDigits[i] = some i.1 := by decide
  obtain h | h := h
  · obtain ⟨hn, rfl⟩ := List.getElem?_eq_some_iff.mp h
    exact hlower ⟨n, hn⟩
  · obtain ⟨hn, rfl⟩ := List.getElem?_eq_some_iff.mp h
    exact hupper ⟨n, hn⟩

theorem hexDigit_hexDigit (h : n < 16) : HexDigit n (Bytes.hexDigit n) := by
  have hdigits : ∀ i : Fin 16, lowerDigits[i.1]? = some (Bytes.hexDigit i.1) := by decide
  exact .inl (hdigits ⟨n, h⟩)

theorem UnitText.unit? (h : UnitText n ds) : ∃ a b c d, ds = [a, b, c, d] ∧
    unit? a b c d = some n := by
  cases h with
  | @digits _ _ _ _ a b c d ha hb hc hd =>
    refine ⟨a, b, c, d, rfl, ?_⟩
    rw [Json.unit?, ha.hexValue?, hb.hexValue?, hc.hexValue?, hd.hexValue?]
    rfl

/-! ## Pieces -/

theorem pieces?_plain (h : IsPlain c) (cs : List Char) :
    pieces? (c :: cs) = (pieces? cs).map fun x ↦ (.char c :: x.1, x.2) := by
  obtain ⟨hcontrol, hquote, hbackslash⟩ := h
  rw [pieces?, if_neg (not_or.mpr ⟨Nat.not_lt.mpr hcontrol, hbackslash⟩)]
  · cases pieces? cs <;> rfl
  · exact hquote
  · exact fun _ _ _ _ _ h _ ↦ hbackslash h
  · exact fun _ _ h _ ↦ hbackslash h

theorem pieces?_letter (h : (l, c) ∈ letters) (cs : List Char) :
    pieces? ('\\' :: l :: cs) = (pieces? cs).map fun x ↦ (.char c :: x.1, x.2) := by
  have hletters : ∀ x ∈ letters, escaped? x.1 = some x.2 ∧ x.1 ≠ 'u' := by decide
  obtain ⟨hescaped, hu⟩ := hletters _ h
  rw [pieces?, hescaped]
  · cases pieces? cs <;> rfl
  · exact fun _ _ _ _ _ h _ ↦ hu h

theorem pieces?_unit (h : UnitText n ds) (cs : List Char) :
    pieces? ('\\' :: 'u' :: (ds ++ cs)) = (pieces? cs).map fun x ↦ (.unit n :: x.1, x.2) := by
  obtain ⟨a, b, c, d, rfl, hunit⟩ := h.unit?
  rw [List.cons_append, List.cons_append, List.cons_append, List.cons_append, List.nil_append,
    pieces?, hunit]
  cases pieces? cs <;> rfl

theorem StringText.pieces? (h : StringText cs) (rest : List Char) :
    ∃ ps, pieces? (cs ++ '"' :: rest) = some (ps, rest) := by
  induction h with
  | nil => exact ⟨[], rfl⟩
  | plain hc _ ih =>
    obtain ⟨ps, hps⟩ := ih
    rw [List.cons_append, pieces?_plain hc, hps]
    exact ⟨_, rfl⟩
  | letter hl _ ih =>
    obtain ⟨ps, hps⟩ := ih
    rw [List.cons_append, List.cons_append, pieces?_letter hl, hps]
    exact ⟨_, rfl⟩
  | unit hn _ ih =>
    obtain ⟨ps, hps⟩ := ih
    rw [List.cons_append, List.cons_append, List.append_assoc, pieces?_unit hn, hps]
    exact ⟨_, rfl⟩

/-! ## Characters -/

/-- The number of a character is no surrogate. -/
theorem not_surrogate (c : Char) : ¬ (0xd800 ≤ c.toNat ∧ c.toNat < 0xe000) := by
  have hvalid : c.toNat < 0xd800 ∨ 0xdfff < c.toNat ∧ c.toNat < 0x110000 := c.valid
  omega

theorem characters?_unit (c : Char) (ps : List Piece) :
    characters? (.unit c.toNat :: ps) = (characters? ps).map (c :: ·) := by
  have hsurrogate := not_surrogate c
  have hhigh : ¬ (0xd800 ≤ c.toNat ∧ c.toNat < 0xdc00) := by omega
  have hlow : ¬ (0xdc00 ≤ c.toNat ∧ c.toNat < 0xe000) := by omega
  have halone (ps : List Piece) (hps : ∀ low rest, ps = .unit low :: rest → False) :
      characters? (.unit c.toNat :: ps) = (characters? ps).map (c :: ·) := by
    rw [characters?, if_neg hsurrogate, Char.ofNat_toNat]
    exact hps
  -- Before another unit it is looked at by itself all the same.
  cases ps with
  | nil => exact halone [] nofun
  | cons p ps =>
    cases p with
    | char => exact halone _ nofun
    | unit => rw [characters?, if_neg hhigh, if_neg hlow, Char.ofNat_toNat]

theorem characters?_pair {high low : ℕ} (hhigh : high < 1024) (hlow : low < 1024)
    (hc : c.toNat = 0x10000 + 1024 * high + low) (ps : List Piece) :
    characters? (.unit (0xd800 + high) :: .unit (0xdc00 + low) :: ps) =
      (characters? ps).map (c :: ·) := by
  have hnumber : 0x10000 + 1024 * (0xd800 + high - 0xd800) + (0xdc00 + low - 0xdc00) = c.toNat := by
    omega
  rw [characters?, if_pos (by omega), if_pos (by omega), hnumber, Char.ofNat_toNat]

theorem Spells.pieces? (h : Spells s cs) (rest : List Char) :
    ∃ ps, pieces? (cs ++ '"' :: rest) = some (ps, rest) ∧ characters? ps = some s := by
  induction h with
  | nil => exact ⟨[], rfl, rfl⟩
  | @plain c _ _ hc _ ih =>
    obtain ⟨ps, hps, hs⟩ := ih
    refine ⟨.char c :: ps, ?_, ?_⟩
    · rw [List.cons_append, pieces?_plain hc, hps]
      rfl
    · rw [characters?, hs]
      rfl
  | @letter _ c _ _ hl _ ih =>
    obtain ⟨ps, hps, hs⟩ := ih
    refine ⟨.char c :: ps, ?_, ?_⟩
    · rw [List.cons_append, List.cons_append, pieces?_letter hl, hps]
      rfl
    · rw [characters?, hs]
      rfl
  | @unit c _ _ _ hn _ ih =>
    obtain ⟨ps, hps, hs⟩ := ih
    refine ⟨.unit c.toNat :: ps, ?_, ?_⟩
    · rw [List.cons_append, List.cons_append, List.append_assoc, pieces?_unit hn, hps]
      rfl
    · rw [characters?_unit, hs]
      rfl
  | @pair _ high low _ _ _ _ hhigh hlow hc hds hes _ ih =>
    obtain ⟨ps, hps, hs⟩ := ih
    refine ⟨.unit (0xd800 + high) :: .unit (0xdc00 + low) :: ps, ?_, ?_⟩
    · rw [List.cons_append, List.cons_append, List.append_assoc, pieces?_unit hds,
        List.cons_append, List.cons_append, List.append_assoc, pieces?_unit hes, hps]
      rfl
    · rw [characters?_pair hhigh hlow hc, hs]
      rfl

/-- A string is read as the characters that its text spells. -/
theorem Spells.string? (h : Spells s cs) (rest : List Char) :
    string? (cs ++ '"' :: rest) = some (String.ofList s, rest) := by
  obtain ⟨ps, hps, hs⟩ := h.pieces? rest
  rw [Json.string?, hps]
  dsimp only [bind, Option.bind]
  rw [hs]
  rfl

/-- What spells characters is the text of a string. -/
theorem Spells.stringText (h : Spells s cs) : StringText cs := by
  induction h with
  | nil => exact .nil
  | plain hc _ ih => exact .plain hc ih
  | letter hl _ ih => exact .letter hl ih
  | unit hn _ ih => exact .unit hn ih
  | pair _ _ _ hds hes _ ih => exact .unit hds (.unit hes ih)

/-! ## Writing -/

theorem Spells.escapeChar (h : Spells s cs) (c : Char) :
    Spells (c :: s) (escapeChar c ++ cs) := by
  unfold Json.escapeChar
  split_ifs with hquote hbackslash hbackspace hformFeed hfeed hreturn htab hcontrol
  · exact .letter (by simp [letters, hquote]) h
  · exact .letter (by simp [letters, hbackslash]) h
  · exact .letter (by simp [letters, hbackspace]) h
  · exact .letter (by simp [letters, hformFeed]) h
  · exact .letter (by simp [letters, hfeed]) h
  · exact .letter (by simp [letters, hreturn]) h
  · exact .letter (by simp [letters, htab]) h
  · have hunit : UnitText (4096 * 0 + 256 * 0 + 16 * (c.toNat / 16) + c.toNat % 16)
        ['0', '0', Bytes.hexDigit (c.toNat / 16), Bytes.hexDigit (c.toNat % 16)] :=
      .digits (.inl rfl) (.inl rfl) (hexDigit_hexDigit (by omega)) (hexDigit_hexDigit (by omega))
    have hnumber : 4096 * 0 + 256 * 0 + 16 * (c.toNat / 16) + c.toNat % 16 = c.toNat := by omega
    rw [hnumber] at hunit
    exact .unit hunit h
  · exact .plain ⟨Nat.not_lt.mp hcontrol, hquote, hbackslash⟩ h

theorem spells_flatMap_escapeChar (s : List Char) : Spells s (s.flatMap escapeChar) := by
  induction s with
  | nil => exact .nil
  | cons c s ih => exact ih.escapeChar c

end BilinearGroups.Json
