import BilinearGroups.Proofs.Bytes.Text

/-!
# Valid parameters

A hash domain is valid if it has characters, all of them printable, and if no tag made from it is
too long. The longest tag adds 32 bytes to the domain, so the bound on the tags is a bound on the
domain alone: parameters are valid exactly if the domain has from 1 to 223 bytes, all of them
printable.

The tags of valid parameters are then what hashing expects of a tag (`IsTag`).
-/

namespace BilinearGroups.Parameters

variable {p : Parameters} {g : Group}

/-- The text is short and printable, as the tags for hashing are. -/
structure IsTag (tag : String) : Prop where
  length_le : (Bytes.ofText tag).length ≤ maxTagLength
  graphic : Bytes.IsGraphic (Bytes.ofText tag)

/-! ## Tags -/

theorem checkTags_eq_ok_iff {gs : List Group} :
    p.checkTags gs = .ok () ↔ ∀ g ∈ gs, (p.tag g).utf8ByteSize ≤ maxTagLength := by
  induction gs with
  | nil => exact iff_of_true rfl (List.forall_mem_nil _)
  | cons g gs ih =>
    rw [checkTags, List.forall_mem_cons, ← ih]
    split_ifs with hlong
    · exact iff_of_false nofun fun h ↦ Nat.not_le_of_lt hlong h.1
    · exact (and_iff_right (Nat.le_of_not_lt hlong)).symm

/-- What the tag of a group adds to the hash domain. -/
def ending (curve : CurveName) (g : Group) : String := "_" ++ curve.tag ++ suite g

theorem tag_eq (p : Parameters) (g : Group) : p.tag g = p.hashDomain ++ ending p.curve g := by
  simp only [tag, ending, String.append_assoc]

/-- An ending has 32 bytes for points and 19 elsewhere. -/
theorem utf8ByteSize_ending (curve : CurveName) (g : Group) :
    (ending curve g).utf8ByteSize = if g.supportsCompression then 32 else 19 := by
  cases curve
  cases g <;> rfl

theorem utf8ByteSize_tag (p : Parameters) (g : Group) : (p.tag g).utf8ByteSize =
    p.hashDomain.utf8ByteSize + if g.supportsCompression then 32 else 19 := by
  rw [tag_eq, String.utf8ByteSize_append, utf8ByteSize_ending]

/-- The tags of the source groups are the longest. -/
theorem tags_le_iff : (∀ g ∈ Group.all, (p.tag g).utf8ByteSize ≤ maxTagLength) ↔
    p.hashDomain.utf8ByteSize ≤ 223 := by
  constructor
  · intro h
    have hg1 := h .g1 (by decide)
    rw [utf8ByteSize_tag, Group.supportsCompression, if_pos rfl, maxTagLength] at hg1
    omega
  · intro h g _
    have hadded : (if g.supportsCompression then 32 else 19) ≤ 32 := by split_ifs <;> decide
    rw [utf8ByteSize_tag, maxTagLength]
    omega

/-! ## Validity -/

theorem length_ofText_pos_iff {s : String} : 1 ≤ (Bytes.ofText s).length ↔ s ≠ "" := by
  rw [Bytes.length_ofText, Nat.one_le_iff_ne_zero, ne_eq, String.utf8ByteSize_eq_zero_iff]

theorem validate_eq_ok_iff : p.validate = .ok () ↔
    1 ≤ (Bytes.ofText p.hashDomain).length ∧ (Bytes.ofText p.hashDomain).length ≤ 223 ∧
      Bytes.IsGraphic (Bytes.ofText p.hashDomain) := by
  rw [length_ofText_pos_iff, Bytes.length_ofText, isGraphic_ofText, validate, ← tags_le_iff,
    ← checkTags_eq_ok_iff, ← List.all_eq_true]
  split_ifs with hempty hgraphic
  · exact iff_of_false nofun fun h ↦ h.1 hempty
  · refine iff_of_false nofun fun h ↦ ?_
    rw [h.2.2] at hgraphic
    cases hgraphic
  · have hall : p.hashDomain.toList.all isGraphic = true := by simpa using hgraphic
    exact ⟨fun h ↦ ⟨hempty, h, hall⟩, fun h ↦ h.2.1⟩

theorem isTag_of_validate (h : p.validate = .ok ()) (g : Group) : IsTag (p.tag g) := by
  obtain ⟨-, hlength, hdomain⟩ := validate_eq_ok_iff.mp h
  rw [Bytes.length_ofText] at hlength
  constructor
  · rw [Bytes.length_ofText]
    have hgroup : g ∈ Group.all := by cases g <;> decide
    exact tags_le_iff.mpr hlength g hgroup
  · rw [isGraphic_ofText] at hdomain ⊢
    have hending : (ending p.curve g).toList.all isGraphic = true := by
      cases p.curve
      cases g <;> rfl
    rw [tag_eq, String.toList_append]
    exact fun c hc ↦ (List.mem_append.mp hc).elim (hdomain c) (List.all_eq_true.mp hending c)

end BilinearGroups.Parameters
