import Mathlib.Data.Nat.Notation
import Mathlib.Logic.Basic
import Mathlib.Tactic.SplitIfs
import BilinearGroups.Element.Arithmetic
import BilinearGroups.Element.Codec
import BilinearGroups.Proofs.Agree

/-!
# What an operation in place can do

An operation checks, computes and assigns. `Update.Replaces` says that this is all it does: where
it fails it leaves the element as it was, and otherwise it replaces the value, and only the value,
by one that stands in a given relation to the element. Each operation has one such statement below,
which says everything about the new value, and every later property of operations is read off
these.

The statements are proved with one rule for each way that operations are put together: reading the
element, computing something that may fail, assigning at the end.
-/

namespace BilinearGroups

namespace Element

variable {B : Backend} {α β : Type} {e : Element B}

namespace Update

/-- Run on one element, the operation leaves it as it is and fails, or replaces its value by one
with a property. -/
def ReplacesAt (u : Update B α) (e : Element B) (S : Value B → Prop) : Prop :=
  (∃ reason, u.run e = .error reason e) ∨ ∃ a v, S v ∧ u.run e = .ok a (e.withValue v)

/-- The operation leaves every element as it is and fails, or replaces its value by one that is
related to it. -/
def Replaces (u : Update B α) (R : Element B → Value B → Prop) : Prop := ∀ e, u.ReplacesAt e (R e)

/-! ## Rules -/

theorem ReplacesAt.mono {u : Update B α} {S T : Value B → Prop} (h : u.ReplacesAt e S)
    (hST : ∀ v, S v → T v) : u.ReplacesAt e T :=
  h.imp_right fun ⟨a, v, hv, hrun⟩ ↦ ⟨a, v, hST v hv, hrun⟩

theorem Replaces.mono {u : Update B α} {R R' : Element B → Value B → Prop} (h : u.Replaces R)
    (hR : ∀ e v, R e v → R' e v) : u.Replaces R' := fun e ↦ (h e).mono (hR e)

theorem Replaces.get {f : Element B → Update B α} {R : Element B → Value B → Prop}
    (h : ∀ e, (f e).ReplacesAt e (R e)) : Replaces (do f (← get)) R := h

theorem ReplacesAt.assign {v : Value B} {S : Value B → Prop} (h : S v) :
    ReplacesAt (assign v) e S := .inr ⟨(), v, h, rfl⟩

theorem ReplacesAt.throw {reason : Error} {S : Value B → Prop} :
    ReplacesAt (throw reason : Update B α) e S := .inl ⟨reason, rfl⟩

/-- A computation that fails leaves the element as it is. -/
theorem ReplacesAt.lift {x : Except Error β} {f : β → Update B α} {S : Value B → Prop}
    (h : ∀ b, x = .ok b → (f b).ReplacesAt e S) : ReplacesAt (do f (← x)) e S := by
  cases x with
  | error reason => exact .inl ⟨reason, rfl⟩
  | ok b => exact h b rfl

/-- What an operation gives back does not matter to the element. -/
theorem Replaces.discard {u : Update B α} {R : Element B → Value B → Prop} (h : u.Replaces R) :
    Replaces (discard u) R := by
  intro e
  obtain ⟨reason, herror⟩ | ⟨a, v, hv, hok⟩ := h e
  · refine .inl ⟨reason, ?_⟩
    show EStateM.map _ u e = _
    unfold EStateM.map
    rw [show u e = _ from herror]
  · refine .inr ⟨(), v, hv, ?_⟩
    show EStateM.map _ u e = _
    unfold EStateM.map
    rw [show u e = _ from hok]

/-- Where an operation succeeds, it leaves the element with the new value. -/
theorem Replaces.of_run {u : Update B α} {R : Element B → Value B → Prop} (h : u.Replaces R)
    {a : α} {e' : Element B} (hrun : u.run e = .ok a e') : ∃ v, R e v ∧ e' = e.withValue v := by
  obtain ⟨reason, herror⟩ | ⟨a, v, hv, hok⟩ := h e
  · rw [herror] at hrun
    cases hrun
  · rw [hok] at hrun
    cases hrun
    exact ⟨v, hv, rfl⟩

theorem Replaces.of_result {u : Update B Unit} {R : Element B → Value B → Prop} (h : u.Replaces R)
    {e' : Element B} (hresult : u.result e = .ok e') : ∃ v, R e v ∧ e' = e.withValue v := by
  rw [result] at hresult
  split at hresult
  · next hrun =>
    cases hresult
    exact h.of_run hrun
  · cases hresult

end Update

open Update

theorem group_eq_of_checkCompatible {other : Element B} (h : e.checkCompatible other = .ok ()) :
    e.group = other.group := by
  unfold checkCompatible at h
  split_ifs at h with _ hgroup
  exact of_not_not hgroup

/-! ## Setting the value -/

theorem setZero_replaces : (setZero (B := B)).Replaces fun e v ↦ v = Value.identity e.group :=
  .get fun _ ↦ .assign rfl

theorem setOne_replaces : (setOne (B := B)).Replaces fun e v ↦ v = Value.one e.group :=
  .get fun _ ↦ .assign rfl

theorem setInteger_replaces (n : Int64) : (setInteger (B := B) n).Replaces fun e v ↦
    e.group = .zr ∧ v = .zr (B.scalars.ofInt64 n) := by
  refine .get fun e ↦ ?_
  split
  · exact .assign ⟨‹_›, rfl⟩
  · exact .throw

theorem set_replaces (other : Element B) : (set other).Replaces fun e v ↦
    e.checkCompatible other = .ok () ∧ v = other.value :=
  .get fun _ ↦ .lift fun _ h ↦ .assign ⟨h, rfl⟩

theorem setGenerator_replaces : (setGenerator (B := B)).Replaces fun e v ↦
    Value.generator e.group = .ok v :=
  .get fun _ ↦ .lift fun _ h ↦ .assign h

theorem setRandom_replaces (ws : Words) : (setRandom (B := B) ws).Replaces fun e v ↦
    ∃ rest, Value.random e.group ws = some (v, rest) := by
  refine .get fun e ↦ ?_
  split
  · next v rest h => exact .inr ⟨rest, v, ⟨rest, h⟩, rfl⟩
  · exact .throw

theorem setFromHash_replaces (message : Bytes) : (setFromHash (B := B) message).Replaces fun e v ↦
    Value.hash message (Bytes.ofText (e.context.tag e.group)) e.group = .ok v := by
  refine .get fun e ↦ ?_
  split
  · next h => exact .assign h
  · exact .throw

/-! ## Arithmetic -/

theorem combine_replaces (op : BinaryOp) (a b : Element B) : (combine op a b).Replaces fun e v ↦
    e.checkCompatible a = .ok () ∧ e.checkCompatible b = .ok () ∧
      a.value.combine op b.value = .ok v :=
  .get fun _ ↦ .lift fun _ ha ↦ .lift fun _ hb ↦ .lift fun _ h ↦ .assign ⟨ha, hb, h⟩

theorem mulInteger_replaces (a : Element B) (n : Int64) : (mulInteger a n).Replaces fun e v ↦
    e.checkCompatible a = .ok () ∧ v = a.value.multiple (B.scalars.ofInt64 n) :=
  .get fun _ ↦ .lift fun _ ha ↦ .assign ⟨ha, rfl⟩

theorem mulScalar_replaces (a z : Element B) : (mulScalar a z).Replaces fun e v ↦
    e.checkCompatible a = .ok () ∧ ∃ k, e.scalarOperand z = .ok k ∧ v = a.value.multiple k :=
  .get fun _ ↦ .lift fun _ ha ↦ .lift fun k hk ↦ .assign ⟨ha, k, hk, rfl⟩

theorem powScalar_replaces (a z : Element B) : (powScalar a z).Replaces fun e v ↦
    e.checkCompatible a = .ok () ∧ ∃ k, e.scalarOperand z = .ok k ∧ v = a.value.power k :=
  .get fun _ ↦ .lift fun _ ha ↦ .lift fun k hk ↦ .assign ⟨ha, k, hk, rfl⟩

theorem invert_replaces (a : Element B) : (invert a).Replaces fun e v ↦
    e.checkCompatible a = .ok () ∧ a.value.inverse = .ok v :=
  .get fun _ ↦ .lift fun _ ha ↦ .lift fun _ h ↦ .assign ⟨ha, h⟩

theorem neg_replaces (a : Element B) : (neg a).Replaces fun e v ↦
    e.checkCompatible a = .ok () ∧ v = a.value.negative :=
  .get fun _ ↦ .lift fun _ ha ↦ .assign ⟨ha, rfl⟩

theorem combineWith_replaces (op : BinaryOp) (b : Element B) : (combineWith op b).Replaces fun e v ↦
    e.checkCompatible b = .ok () ∧ e.value.combine op b.value = .ok v :=
  .get fun _ ↦ .lift fun _ hb ↦ .lift fun _ h ↦ .assign ⟨hb, h⟩

theorem powScalarWith_replaces (z : Element B) : (powScalarWith z).Replaces fun e v ↦
    ∃ k, e.scalarOperand z = .ok k ∧ v = e.value.power k :=
  .get fun _ ↦ .lift fun k hk ↦ .assign ⟨k, hk, rfl⟩

theorem inverted_replaces : (inverted (B := B)).Replaces fun e v ↦ e.value.inverse = .ok v :=
  .get fun _ ↦ .lift fun _ h ↦ .assign h

/-! ## Reading encodings -/

theorem decoded_eq_ok_iff {g : Group} {x : Except BackendError α} {a : α} :
    decoded g x = .ok a ↔ x = .ok a := by
  cases x <;> simp [decoded]

theorem checkLength_eq_ok {g : Group} {expected : ℕ} {bs : Bytes}
    (h : checkLength g expected bs = .ok ()) : bs.length = expected := by
  rw [checkLength] at h
  split_ifs at h with hne
  exact of_not_not hne

theorem setFromBytes_replaces (bs : Bytes) : (setFromBytes (B := B) bs).Replaces fun e v ↦
    bs.length = e.byteLength ∧ Value.ofBytes bs e.group = .ok v :=
  .get fun _ ↦ .lift fun _ hlength ↦ .lift fun _ h ↦
    .assign ⟨checkLength_eq_ok hlength, decoded_eq_ok_iff.mp h⟩

theorem setFromCompressedBytes_replaces (bs : Bytes) :
    (setFromCompressedBytes (B := B) bs).Replaces fun e v ↦
      e.compressedByteLength = .ok bs.length ∧
        ((e.group = .g1 ∧ ∃ p, B.g1.ofCompressed bs = .ok p ∧ v = .g1 p) ∨
          e.group = .g2 ∧ ∃ q, B.g2.ofCompressed bs = .ok q ∧ v = .g2 q) := by
  refine .get fun e ↦ .lift fun n hn ↦ .lift fun _ hlength ↦ ?_
  obtain rfl := checkLength_eq_ok hlength
  split
  · next hg =>
    exact .lift fun p h ↦ .assign ⟨hn, .inl ⟨hg, p, decoded_eq_ok_iff.mp h, rfl⟩⟩
  · next hg =>
    exact .lift fun q h ↦ .assign ⟨hn, .inr ⟨hg, q, decoded_eq_ok_iff.mp h, rfl⟩⟩
  · exact .throw

/-- Setting from an encoding that the backend reads succeeds. -/
theorem setFromBytes_run {bs : Bytes} {v : Value B} (hlength : bs.length = e.byteLength)
    (h : Value.ofBytes bs e.group = .ok v) :
    (setFromBytes bs).run e = .ok () (e.withValue v) := by
  have hcheck : checkLength e.group e.byteLength bs = .ok () := if_neg (not_not.mpr hlength)
  have hdecoded : decoded e.group (Value.ofBytes bs e.group) = .ok v := decoded_eq_ok_iff.mpr h
  rw [setFromBytes, EStateM.run_bind, EStateM.run_get]
  simp only [hcheck, hdecoded]
  rfl

theorem group_fresh (c : Context B) (g : Group) : (fresh c g).group = g := by cases g <;> rfl

/-- Strings of one length that the backend reads alike are decoded alike. -/
theorem ofBytes_congr {c : Context B} {g : Group} {bs bs' : Bytes}
    (hlength : bs.length = bs'.length) (h : Value.ofBytes (B := B) bs g = Value.ofBytes bs' g) :
    ofBytes c g bs = ofBytes c g bs' := by
  rw [ofBytes, ofBytes, Update.result, Update.result, setFromBytes, setFromBytes,
    EStateM.run_bind, EStateM.run_bind, EStateM.run_get]
  simp only [checkLength, group_fresh, hlength, h]

/-- A decoded element has the context it is decoded for, and the value that the backend reads. -/
theorem ofBytes_eq_ok_iff {c : Context B} {g : Group} {bs : Bytes} :
    ofBytes c g bs = .ok e ↔
      e.context = c ∧ bs.length = c.byteLength g ∧ Value.ofBytes bs g = .ok e.value := by
  have hlength : (fresh c g).byteLength = c.byteLength g := by rw [byteLength, group_fresh]; rfl
  constructor
  · intro h
    obtain ⟨v, ⟨hv, hread⟩, rfl⟩ := (setFromBytes_replaces bs).of_result h
    rw [group_fresh] at hread
    exact ⟨rfl, hv.trans hlength, hread⟩
  · rintro ⟨rfl, hbs, hread⟩
    have hrun := setFromBytes_run (hbs.trans hlength.symm) ((group_fresh e.context g).symm ▸ hread)
    rw [ofBytes, Update.result, hrun]
    rfl

end Element

end BilinearGroups
