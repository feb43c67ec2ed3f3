import Mathlib.Data.List.DropRight
import Mathlib.Data.List.Forall2
import BilinearGroups.Text

/-!
# Lines and the blanks around them

A line of a text ends at a line feed, or at a carriage return before a line feed. The library takes
the pieces between line feeds instead and takes the blanks off them. This comes to the same, because
a carriage return is a blank, and so is the empty piece after a last line feed
(`exists_lines_eq`).

Blanks that are put around a piece are taken off again (`trim_padded`). Where a piece starts with a
word, only the blanks at its end are taken off (`trim_word_append`).
-/

namespace BilinearGroups.Text

/-! ## Blanks -/

/-- The text has no characters but blanks. -/
def AllBlank (cs : List Char) : Prop := ∀ c ∈ cs, isBlank c = true

/-- The text is not empty and has no blanks. -/
def IsWord (cs : List Char) : Prop := cs ≠ [] ∧ ∀ c ∈ cs, isBlank c = false

instance (cs : List Char) : Decidable (IsWord cs) :=
  decidable_of_iff (cs ≠ [] ∧ cs.all (fun c ↦ !isBlank c) = true) (by simp [IsWord])

/-- The text without the blanks at its end. -/
def trimEnd (cs : List Char) : List Char := cs.rdropWhile isBlank

theorem trim_eq (cs : List Char) : trim cs = trimEnd (trimStart cs) := rfl

theorem trimStart_append_of_blank {before : List Char} (h : AllBlank before) (cs : List Char) :
    trimStart (before ++ cs) = trimStart cs := List.dropWhile_append_of_pos h

theorem trimEnd_eq_nil_iff {cs : List Char} : trimEnd cs = [] ↔ AllBlank cs :=
  List.rdropWhile_eq_nil_iff

theorem trimEnd_append_of_blank {after : List Char} (h : AllBlank after) (cs : List Char) :
    trimEnd (cs ++ after) = trimEnd cs := by
  have hreverse : ∀ c ∈ after.reverse, isBlank c = true := fun c hc ↦ h c (List.mem_reverse.mp hc)
  rw [trimEnd, List.rdropWhile, List.reverse_append, List.dropWhile_append_of_pos hreverse]
  rfl

theorem trimEnd_append_of_not_blank {after : List Char} (h : ¬ AllBlank after) (cs : List Char) :
    trimEnd (cs ++ after) = cs ++ trimEnd after := by
  rw [← trimEnd_eq_nil_iff, trimEnd, List.rdropWhile, List.reverse_eq_nil_iff] at h
  rw [trimEnd, List.rdropWhile, List.reverse_append, List.dropWhile_append,
    if_neg (by rwa [List.isEmpty_iff]), List.reverse_append, List.reverse_reverse]
  rfl

theorem trimStart_of_blank {cs : List Char} (h : AllBlank cs) : trimStart cs = [] :=
  List.dropWhile_eq_nil_iff.mpr h

theorem trim_append_of_blank {after : List Char} (h : AllBlank after) (cs : List Char) :
    trim (cs ++ after) = trim cs := by
  rw [trim_eq, trim_eq, trimStart, trimStart, List.dropWhile_append]
  split_ifs with hblank
  -- Without any character before them, the blanks are taken off at the start.
  · rw [List.isEmpty_iff] at hblank
    rw [hblank, ← trimStart, trimStart_of_blank h]
  · exact trimEnd_append_of_blank h _

/-- Blanks around a text are taken off. -/
theorem trim_padded {before after : List Char} (hbefore : AllBlank before) (hafter : AllBlank after)
    (cs : List Char) : trim (before ++ cs ++ after) = trim cs := by
  rw [trim_append_of_blank hafter, trim_eq, trimStart_append_of_blank hbefore, ← trim_eq]

theorem trim_trimEnd (cs : List Char) : trim (trimEnd cs) = trim cs := by
  have hblank : AllBlank (cs.rtakeWhile isBlank) := fun _ ↦ List.mem_rtakeWhile_imp
  have happend : trimEnd cs ++ cs.rtakeWhile isBlank = cs := List.rdropWhile_append_rtakeWhile
  rw [← trim_append_of_blank hblank, happend]

/-- A word at the start of a text stays. -/
theorem trim_word_append {word : List Char} (h : IsWord word) (cs : List Char) :
    trim (word ++ cs) = word ++ trimEnd cs := by
  obtain ⟨hne, hword⟩ := h
  have hstart : trimStart (word ++ cs) = word ++ cs := by
    obtain ⟨c, word, rfl⟩ := List.exists_cons_of_ne_nil hne
    exact List.dropWhile_cons_of_neg (by simp [hword c List.mem_cons_self])
  have hend : trimEnd word = word := by
    refine List.rdropWhile_eq_self_iff.mpr fun hne ↦ ?_
    simp [hword _ (List.getLast_mem hne)]
  rw [trim_eq, hstart]
  by_cases hblank : AllBlank cs
  · rw [trimEnd_append_of_blank hblank, hend, trimEnd_eq_nil_iff.mpr hblank, List.append_nil]
  · exact trimEnd_append_of_not_blank hblank word

/-! ## Lines -/

/-- The lines of a text. A line ends at a line feed, or at a carriage return before a line feed, and
the last one may end with the text. -/
def splitLines : List Char → List (List Char)
  | [] => []
  | '\n' :: cs => [] :: splitLines cs
  | '\r' :: '\n' :: cs => [] :: splitLines cs
  | c :: cs =>
    match splitLines cs with
    | [] => [[c]]
    | line :: rest => (c :: line) :: rest

/-- The piece between line feeds is the line, up to the carriage return in its end. -/
def IsPiece (piece line : List Char) : Prop := piece = line ∨ piece = line ++ ['\r']

theorem IsPiece.cons {piece line : List Char} (h : IsPiece piece line) (c : Char) :
    IsPiece (c :: piece) (c :: line) := h.imp (congrArg (c :: ·)) (congrArg (c :: ·))

theorem IsPiece.trim_eq {piece line : List Char} (h : IsPiece piece line) :
    trim piece = trim line := by
  rcases h with rfl | rfl
  · rfl
  · exact trim_append_of_blank (by simp [AllBlank, isBlank]) line

theorem lines_cons_of_ne {c : Char} (hc : c ≠ '\n') {cs line : List Char} {rest : List (List Char)}
    (h : lines cs = line :: rest) : lines (c :: cs) = (c :: line) :: rest := by
  rw [lines, if_neg hc, h]

theorem lines_ne_nil (cs : List Char) : lines cs ≠ [] := by
  cases cs with
  | nil => simp [lines]
  | cons c cs =>
    unfold lines
    split
    · simp
    · split <;> simp

/-- The pieces between line feeds are the lines, apart from an empty piece at the end. -/
theorem exists_lines_eq (cs : List Char) : ∃ pieces last, lines cs = pieces ++ last ∧
    List.Forall₂ IsPiece pieces (splitLines cs) ∧ (last = [] ∨ last = [[]]) := by
  fun_induction splitLines cs with
  | case1 => exact ⟨[], [[]], rfl, .nil, .inr rfl⟩
  | case2 cs ih =>
    obtain ⟨pieces, last, hlines, hpieces, hlast⟩ := ih
    refine ⟨[] :: pieces, last, ?_, .cons (.inl rfl) hpieces, hlast⟩
    rw [lines, if_pos rfl, hlines, List.cons_append]
  | case3 cs ih =>
    obtain ⟨pieces, last, hlines, hpieces, hlast⟩ := ih
    have hfeed : lines ('\n' :: cs) = [] :: (pieces ++ last) := by rw [lines, if_pos rfl, hlines]
    exact ⟨['\r'] :: pieces, last, lines_cons_of_ne (by decide) hfeed, .cons (.inr rfl) hpieces,
      hlast⟩
  | case4 c cs hfeed _ hnil ih =>
    obtain ⟨pieces, last, hlines, hpieces, hlast⟩ := ih
    rw [hnil, List.forall₂_nil_right_iff] at hpieces
    rw [hpieces, List.nil_append] at hlines
    obtain rfl : last = [[]] :=
      hlast.resolve_left fun hlast ↦ lines_ne_nil cs (hlines.trans hlast)
    exact ⟨[[c]], [], lines_cons_of_ne hfeed hlines, .cons (.inl rfl) .nil, .inl rfl⟩
  | case5 c cs hfeed _ line rest hcons ih =>
    obtain ⟨pieces, last, hlines, hpieces, hlast⟩ := ih
    rw [hcons, List.forall₂_cons_right_iff] at hpieces
    obtain ⟨piece, pieces, hpiece, hpieces, rfl⟩ := hpieces
    exact ⟨(c :: piece) :: pieces, last, lines_cons_of_ne hfeed hlines,
      .cons (hpiece.cons c) hpieces, hlast⟩

/-! ## Texts made of lines -/

/-- The text with the given lines. -/
def unlines (ls : List (List Char)) : List Char := ['\n'].intercalate ls

theorem lines_of_not_mem {line : List Char} (h : '\n' ∉ line) : lines line = [line] := by
  induction line with
  | nil => rfl
  | cons c line ih =>
    rw [List.mem_cons, not_or] at h
    exact lines_cons_of_ne (Ne.symm h.1) (ih h.2)

theorem lines_append_feed {line : List Char} (h : '\n' ∉ line) (cs : List Char) :
    lines (line ++ '\n' :: cs) = line :: lines cs := by
  induction line with
  | nil => rw [List.nil_append, lines, if_pos rfl]
  | cons c line ih =>
    rw [List.mem_cons, not_or] at h
    exact lines_cons_of_ne (Ne.symm h.1) (ih h.2)

theorem lines_unlines {line : List Char} {ls : List (List Char)}
    (h : ∀ l ∈ line :: ls, '\n' ∉ l) : lines (unlines (line :: ls)) = line :: ls := by
  induction ls generalizing line with
  | nil => simpa [unlines] using lines_of_not_mem (h line List.mem_cons_self)
  | cons next ls ih =>
    rw [List.forall_mem_cons] at h
    have hnext : unlines (line :: next :: ls) = line ++ '\n' :: unlines (next :: ls) := by
      simp [unlines, List.intercalate]
    rw [hnext, lines_append_feed h.1, ih h.2]

end BilinearGroups.Text
