import Mathlib.Data.Nat.Notation
import Mathlib.Logic.Basic
import Mathlib.Tactic.SplitIfs
import BilinearGroups.Bytes
import BilinearGroups.Parameters

/-!
# The bytes of a text

The bytes of a text are those of its characters, one after the other, and they are valid as a text
again. Beyond ASCII every character is written with bytes that are too large to be printable, so a
text is printable by its characters exactly if it is by its bytes.
-/

namespace BilinearGroups

namespace Bytes

/-- The loop puts the bytes from a position on behind those that it has met. -/
private theorem toList_loop_eq (a : ByteArray) (i : ℕ) (bs : Bytes) :
    ByteArray.toList.loop a i bs = bs.reverse ++ a.data.toList.drop i := by
  fun_induction ByteArray.toList.loop a i bs with
  | case1 i bs h ih =>
    have hlength : i < a.data.toList.length := h
    have hget : a.get! i = a.data[i]! := by cases a; rfl
    rw [ih, List.drop_eq_getElem_cons hlength, List.reverse_cons, List.append_assoc, hget,
      getElem!_pos a.data i h]
    rfl
  | case2 i bs h =>
    have hlength : a.data.toList.length ≤ i := Nat.le_of_not_lt h
    rw [List.drop_eq_nil_of_le hlength, List.append_nil]

theorem toByteArray_ofText (s : String) : (ofText s).toByteArray = s.toByteArray := by
  rw [ofText, String.toUTF8_eq_toByteArray, ByteArray.toList, toList_loop_eq]
  apply ByteArray.ext
  rw [List.data_toByteArray]
  rfl

theorem ofText_injective : Function.Injective ofText := by
  intro s t h
  rw [← String.toByteArray_inj, ← toByteArray_ofText, ← toByteArray_ofText, h]

theorem ofText_eq (s : String) : ofText s = s.toList.flatMap String.utf8EncodeChar := by
  rw [← List.toByteArray_inj, toByteArray_ofText, ← String.utf8Encode_toList, List.utf8Encode]

theorem length_ofText (s : String) : (ofText s).length = s.utf8ByteSize := by
  rw [← List.size_toByteArray, toByteArray_ofText, String.size_toByteArray]

theorem validateUTF8_ofText (s : String) : (ofText s).toByteArray.validateUTF8 = true := by
  rw [toByteArray_ofText, ByteArray.validateUTF8_eq_true_iff]
  exact s.isValidUTF8

/-- All bytes are printable ASCII, and none is a space. -/
def IsGraphic (bs : Bytes) : Prop := ∀ b ∈ bs, 0x21 ≤ b ∧ b ≤ 0x7e

end Bytes

namespace Parameters

theorem isGraphic_utf8EncodeChar (c : Char) :
    Bytes.IsGraphic (String.utf8EncodeChar c) ↔ isGraphic c = true := by
  have hval : c.val.toNat = c.toNat := rfl
  have hlt := c.val.toNat_lt
  unfold Bytes.IsGraphic isGraphic String.utf8EncodeChar
  dsimp only
  rw [hval] at hlt ⊢
  -- The first byte of a longer form is too large.
  split_ifs <;> simp [UInt8.le_iff_toNat_le] <;> omega

theorem isGraphic_ofText (s : String) :
    Bytes.IsGraphic (Bytes.ofText s) ↔ ∀ c ∈ s.toList, isGraphic c = true := by
  rw [Bytes.IsGraphic, Bytes.ofText_eq]
  constructor
  · intro h c hc
    exact (isGraphic_utf8EncodeChar c).mp fun b hb ↦ h b (List.mem_flatMap.mpr ⟨c, hc, hb⟩)
  · intro h b hb
    obtain ⟨c, hc, hb⟩ := List.mem_flatMap.mp hb
    exact (isGraphic_utf8EncodeChar c).mpr (h c hc) b hb

end Parameters

end BilinearGroups
