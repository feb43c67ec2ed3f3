import BilinearGroups.Element.Codec
import BilinearGroups.Proofs.Element.Comparison
import BilinearGroups.Proofs.Element.Update

/-!
# What an operation in place computes

As an operation on an element checks, computes and assigns, what it makes of the element is a
computation without state: the checks one after the other, then the new value. Each operation has
such an equation below. Where only success matters the statements of `Replaces` say the same; these
say in addition when and for which reason an operation fails.
-/

namespace BilinearGroups.Element

variable {B : Backend} {α : Type} {e : Element B}

namespace Update

/-! ## Rules -/

theorem result_get (f : Element B → Update B Unit) :
    result (do f (← get)) e = (f e).result e := rfl

theorem result_lift (x : Except Error α) (f : α → Update B Unit) :
    result (do f (← x)) e = x >>= fun a ↦ (f a).result e := by
  cases x <;> rfl

theorem result_seq (u u' : Update B Unit) :
    result (do u; u') e = u.result e >>= fun e' ↦ u'.result e' := by
  rw [result, result, EStateM.run_bind]
  cases u.run e <;> rfl

/-- An operation that only replaces a value is determined by what it makes of the element. -/
theorem Replaces.run_eq {u : Update B Unit} {R : Element B → Value B → Prop} (h : u.Replaces R)
    (e : Element B) : u.run e =
      match u.result e with
      | .ok e' => .ok () e'
      | .error reason => .error reason e := by
  obtain ⟨reason, herror⟩ | ⟨⟨⟩, v, -, hok⟩ := h e
  · rw [result, herror]
  · rw [result, hok]

theorem result_discard_ok {u : Update B α} {a : α} {e' : Element B}
    (h : u.run e = .ok a e') : result (discard u) e = .ok e' := by
  have hrun : (discard u : Update B Unit).run e = .ok () e' := by
    show EStateM.map _ u e = _
    rw [EStateM.map, show u e = _ from h]
  rw [result, hrun]

theorem result_discard_error {u : Update B α} {reason : Error} {e' : Element B}
    (h : u.run e = .error reason e') : result (discard u) e = .error reason := by
  have hrun : (discard u : Update B Unit).run e = .error reason e' := by
    show EStateM.map _ u e = _
    rw [EStateM.map, show u e = _ from h]
  rw [result, hrun]

end Update

open Update

/-! ## Setting the value -/

theorem setZero_result : setZero.result e = .ok (e.withValue (.identity e.group)) := rfl

theorem setOne_result : setOne.result e = .ok (e.withValue (.one e.group)) := rfl

theorem setInteger_result (n : Int64) : (setInteger n).result e =
    if e.group = .zr then .ok (e.withValue (.zr (B.scalars.ofInt64 n)))
    else .error (.unsupported .integerAssignment e.group) := by
  rw [setInteger, result_get]
  cases e.group <;> rfl

theorem set_result (a : Element B) : (set a).result e = do
    e.checkCompatible a
    return e.withValue a.value := by
  rw [set, result_get, result_lift]
  rfl

theorem setGenerator_result :
    setGenerator.result e = do return e.withValue (← Value.generator e.group) := by
  rw [setGenerator, result_get, result_lift]
  rfl

theorem setRandom_run (supply : Words) : (setRandom supply).run e =
    (Value.random e.group supply).elim (.error .exhausted e)
      fun drawn ↦ .ok drawn.2 (e.withValue drawn.1) := by
  rw [setRandom, EStateM.run_bind, EStateM.run_get]
  dsimp only
  cases Value.random e.group supply <;> rfl

theorem setRandom_result (supply : Words) : result (discard (setRandom supply)) e =
    (Value.random e.group supply).elim (.error .exhausted)
      fun drawn ↦ .ok (e.withValue drawn.1) := by
  have hrun := setRandom_run (e := e) supply
  cases hdraw : Value.random e.group supply with
  | none =>
    rw [hdraw] at hrun
    exact result_discard_error hrun
  | some drawn =>
    rw [hdraw] at hrun
    exact result_discard_ok hrun

theorem setFromHash_result (message : Bytes) : (setFromHash message).result e = do
    return e.withValue (← (Value.hash message (Bytes.ofText (e.context.tag e.group))
      e.group).mapError Error.backend) := by
  rw [setFromHash, result_get]
  cases Value.hash message (Bytes.ofText (e.context.tag e.group)) e.group <;> rfl

/-! ## Arithmetic -/

theorem combine_result (op : BinaryOp) (a b : Element B) : (combine op a b).result e = do
    e.checkCompatible a
    e.checkCompatible b
    return e.withValue (← a.value.combine op b.value) := by
  rw [combine, result_get]
  simp only [result_lift]
  rfl

theorem mulInteger_result (a : Element B) (n : Int64) : (mulInteger a n).result e = do
    e.checkCompatible a
    return e.withValue (a.value.multiple (B.scalars.ofInt64 n)) := by
  rw [mulInteger, result_get, result_lift]
  rfl

theorem mulScalar_result (a z : Element B) : (mulScalar a z).result e = do
    e.checkCompatible a
    return e.withValue (a.value.multiple (← e.scalarOperand z)) := by
  rw [mulScalar, result_get]
  simp only [result_lift]
  rfl

theorem powScalar_result (a z : Element B) : (powScalar a z).result e = do
    e.checkCompatible a
    return e.withValue (a.value.power (← e.scalarOperand z)) := by
  rw [powScalar, result_get]
  simp only [result_lift]
  rfl

theorem invert_result (a : Element B) : (invert a).result e = do
    e.checkCompatible a
    return e.withValue (← a.value.inverse) := by
  rw [invert, result_get]
  simp only [result_lift]
  rfl

theorem neg_result (a : Element B) : (neg a).result e = do
    e.checkCompatible a
    return e.withValue a.value.negative := by
  rw [neg, result_get, result_lift]
  rfl

theorem combineWith_result (op : BinaryOp) (b : Element B) : (combineWith op b).result e = do
    e.checkCompatible b
    return e.withValue (← e.value.combine op b.value) := by
  rw [combineWith, result_get]
  simp only [result_lift]
  rfl

theorem powScalarWith_result (z : Element B) : (powScalarWith z).result e = do
    return e.withValue (e.value.power (← e.scalarOperand z)) := by
  rw [powScalarWith, result_get, result_lift]
  rfl

theorem inverted_result : inverted.result e = do return e.withValue (← e.value.inverse) := by
  rw [inverted, result_get, result_lift]
  rfl

/-! ### The receiver

An operation with operands looks at the context and at the group of its receiver and at nothing
else, and an operation on the element itself is one with the element as its first operand. -/

/-- Every element is compatible with itself. -/
theorem checkCompatible_self (e : Element B) : e.checkCompatible e = .ok () := by
  rw [checkCompatible, Context.sameAs_self, if_neg (by decide), if_neg (not_not.mpr rfl)]

theorem checkCompatible_withValue {v : Value B} (hv : v.group = e.group) (a : Element B) :
    (e.withValue v).checkCompatible a = e.checkCompatible a := by
  have hgroup : (e.withValue v).group = e.group := hv
  rw [checkCompatible, checkCompatible, hgroup]
  rfl

theorem combineWith_eq_combine (op : BinaryOp) (b : Element B) :
    (combineWith op b).result e = (combine op e b).result e := by
  rw [combineWith_result, combine_result, checkCompatible_self]
  rfl

theorem powScalarWith_eq_powScalar (z : Element B) :
    (powScalarWith z).result e = (powScalar e z).result e := by
  rw [powScalarWith_result, powScalar_result, checkCompatible_self]
  rfl

theorem inverted_eq_invert : inverted.result e = (invert e).result e := by
  rw [inverted_result, invert_result, checkCompatible_self]
  rfl

theorem combine_withValue {v : Value B} (hv : v.group = e.group) (op : BinaryOp)
    (a b : Element B) : (combine op a b).result (e.withValue v) = (combine op a b).result e := by
  rw [combine_result, combine_result, checkCompatible_withValue hv, checkCompatible_withValue hv]
  rfl

theorem powScalar_withValue {v : Value B} (hv : v.group = e.group) (a z : Element B) :
    (powScalar a z).result (e.withValue v) = (powScalar a z).result e := by
  rw [powScalar_result, powScalar_result, checkCompatible_withValue hv]
  rfl

theorem invert_withValue {v : Value B} (hv : v.group = e.group) (a : Element B) :
    (invert a).result (e.withValue v) = (invert a).result e := by
  rw [invert_result, invert_result, checkCompatible_withValue hv]
  rfl

/-! ## Reading encodings -/

/-- The value of a group with a canonical encoding, whose length is looked at before it is read. -/
def readValue (c : Context B) (bs : Bytes) (g : Group) : Except Error (Value B) := do
  checkLength g (c.byteLength g) bs
  decoded g (Value.ofBytes bs g)

theorem setFromBytes_result (bs : Bytes) : (setFromBytes bs).result e = do
    return e.withValue (← readValue e.context bs e.group) := by
  rw [setFromBytes, result_get]
  simp only [result_lift, readValue, bind_assoc]
  rfl

/-- A new element has the value that is read. -/
theorem ofBytes_eq (c : Context B) (g : Group) (bs : Bytes) :
    ofBytes c g bs = (readValue c bs g).map (Element.mk c) := by
  have hcontext : (fresh c g).context = c := rfl
  rw [ofBytes, setFromBytes_result, group_fresh, hcontext]
  cases readValue c bs g <;> rfl

/-- Reading an element is reading its record, and then the bytes in it. -/
theorem readJson_eq (c : Context B) (accepted? : Option Group) (text : List Char) :
    readJson c accepted? text = record.read text >>= fun x ↦
      ((ofRecord c accepted? x.1.1 x.1.2).mapError fun reason ↦
        Json.Error.data (.refused reason.message)).map (·, x.2) := by
  rw [readJson]
  cases record.read text with
  | error reason => rfl
  | ok x =>
    obtain ⟨⟨g, bs⟩, rest⟩ := x
    dsimp only [bind, Except.bind]
    cases ofRecord c accepted? g bs <;> rfl

end BilinearGroups.Element
