import BilinearGroups.Proofs.Element.Derived
import BilinearGroups.Session

/-!
# What a call can do

A call either fails and leaves the session as it was, or succeeds with one of five effects, which
`Session.Performed` lists. Properties of sessions are proved for the five effects; failures need no
thought, and runs follow by induction.

Elements enter a session, and change there, only with values that are derived from the values held
before.
-/

namespace BilinearGroups

open Value (Derived)

namespace Session

variable {B : Backend} {s s' : Session B} {name : String} {e : Element B}

/-- The value of an element under some name. -/
def Held (s : Session B) (v : Value B) : Prop :=
  ∃ name e, s.elements.get? name = some e ∧ e.value = v

theorem not_held_empty (v : Value B) : ¬ (empty B).Held v := by
  rintro ⟨name, e, he, -⟩
  cases he

theorem element_eq_ok_iff : s.element name = .ok e ↔ s.elements.get? name = some e := by
  unfold element
  split <;> simp_all

theorem held_of_element (h : s.element name = .ok e) : s.Held e.value :=
  ⟨name, e, element_eq_ok_iff.mp h, rfl⟩

/-- Elements that are found together are found one by one. -/
theorem exists_element_of_elementsOf {names : List String} {es : List (Element B)}
    (h : s.elementsOf names = .ok es) : ∀ e ∈ es, ∃ name ∈ names, s.element name = .ok e := by
  induction names generalizing es with
  | nil =>
    cases h
    exact List.forall_mem_nil _
  | cons name names ih =>
    obtain ⟨e, he, h⟩ := exists_of_bind_eq_ok h
    obtain ⟨rest, hrest, h⟩ := exists_of_bind_eq_ok h
    cases h
    rw [List.forall_mem_cons]
    refine ⟨⟨name, List.mem_cons_self, he⟩, fun d hd ↦ ?_⟩
    obtain ⟨other, hother, hd⟩ := ih hrest d hd
    exact ⟨other, List.mem_cons_of_mem name hother, hd⟩

theorem held_of_elementsOf {names : List String} {es : List (Element B)}
    (h : s.elementsOf names = .ok es) : ∀ e ∈ es, s.Held e.value := by
  intro e he
  obtain ⟨name, -, helement⟩ := exists_element_of_elementsOf h e he
  exact held_of_element helement

theorem accept_eq_ok_iff {α : Type} {x : Except Error α} {a : α} :
    accept x = .ok a ↔ x = .ok a := mapError_eq_ok_iff

theorem readable_eq_ok_iff {α : Type} {x : Except Json.Error α} {a : α} :
    readable x = .ok a ↔ x = .ok a := mapError_eq_ok_iff

/-! ## New elements -/

/-- What a creation gives is derived from the values held. -/
theorem Creation.produce_derived {creation : Creation} (h : creation.produce s = .ok e) :
    Derived s.Held e.group e.value := by
  cases creation with
  | fresh context g =>
    obtain ⟨c, -, h⟩ := exists_of_bind_eq_ok h
    cases h
    rw [Element.group, Element.fresh, Value.group_identity]
    exact .identity g
  | freshLike operand =>
    obtain ⟨o, -, h⟩ := exists_of_bind_eq_ok h
    cases h
    rw [Element.group, Element.freshLike, Element.fresh, Value.group_identity]
    exact .identity o.group
  | copy operand => exact .copied (held_of_element h)
  | ofBytes context g bytes =>
    obtain ⟨c, -, h⟩ := exists_of_bind_eq_ok h
    exact Element.ofBytes_derived (accept_eq_ok_iff.mp h)
  | ofCompressedBytes context g bytes =>
    obtain ⟨c, -, h⟩ := exists_of_bind_eq_ok h
    exact Element.ofCompressedBytes_derived (accept_eq_ok_iff.mp h)
  | ofJson context accepted? text =>
    obtain ⟨c, -, h⟩ := exists_of_bind_eq_ok h
    obtain ⟨⟨e, rest⟩, hread, h⟩ := exists_of_bind_eq_ok h
    cases h
    exact Element.readJson_derived (readable_eq_ok_iff.mp hread)
  | pairing context left right =>
    obtain ⟨c, -, h⟩ := exists_of_bind_eq_ok h
    obtain ⟨a, ha, h⟩ := exists_of_bind_eq_ok h
    obtain ⟨b, hb, h⟩ := exists_of_bind_eq_ok h
    exact Context.pair_derived (accept_eq_ok_iff.mp h) (held_of_element ha) (held_of_element hb)
  | pairingProduct context lefts rights =>
    obtain ⟨c, -, h⟩ := exists_of_bind_eq_ok h
    obtain ⟨as, has, h⟩ := exists_of_bind_eq_ok h
    obtain ⟨bs, hbs, h⟩ := exists_of_bind_eq_ok h
    exact Context.pairingProduct_derived (accept_eq_ok_iff.mp h) (held_of_elementsOf has)
      (held_of_elementsOf hbs)

/-! ## Changes -/

open Element (group_eq_of_checkCompatible)

theorem combine_replaces_derived (op : BinaryOp) {a b : Element B} (ha : s.Held a.value)
    (hb : s.Held b.value) :
    (Element.combine op a b).Replaces fun e v ↦ s.Held e.value → Derived s.Held e.group v := by
  refine (Element.combine_replaces op a b).mono fun e v ⟨hcheck, _, hv⟩ _ ↦ ?_
  rw [group_eq_of_checkCompatible hcheck]
  exact .combined ha hb hv

/-- What a change puts in the place of a value is derived from the values held. -/
theorem Change.update_replaces {change : Change} {u : Element.Update B Unit}
    (h : change.update s = .ok u) :
    u.Replaces fun e v ↦ s.Held e.value → Derived s.Held e.group v := by
  cases change with
  | zero =>
    cases h
    refine Element.setZero_replaces.mono fun e v hv _ ↦ ?_
    rw [hv]
    exact .identity _
  | one =>
    cases h
    refine Element.setOne_replaces.mono fun e v hv _ ↦ ?_
    rw [hv]
    exact .one _
  | integer n =>
    cases h
    refine (Element.setInteger_replaces n).mono fun e v ⟨hgroup, hv⟩ _ ↦ ?_
    rw [hgroup, hv]
    exact .integer n
  | value operand =>
    obtain ⟨o, ho, h⟩ := exists_of_bind_eq_ok h
    cases h
    refine (Element.set_replaces o).mono fun e v ⟨hcheck, hv⟩ _ ↦ ?_
    -- The check of the operand says that its group is the one of the receiver.
    rw [group_eq_of_checkCompatible hcheck, hv]
    exact .copied (held_of_element ho)
  | generator =>
    cases h
    exact Element.setGenerator_replaces.mono fun _ _ hv _ ↦ .generator hv
  | random supply =>
    cases h
    exact (Element.setRandom_replaces supply).discard.mono fun _ _ ⟨_, hv⟩ _ ↦ .random hv
  | hash message =>
    cases h
    exact (Element.setFromHash_replaces message).mono fun _ _ hv _ ↦ .hash hv
  | bytes encoding =>
    cases h
    exact (Element.setFromBytes_replaces encoding).mono fun _ _ ⟨_, hv⟩ _ ↦ .decoded hv
  | compressedBytes encoding =>
    cases h
    refine (Element.setFromCompressedBytes_replaces encoding).mono fun e v ⟨_, hv⟩ _ ↦ ?_
    rcases hv with ⟨hgroup, p, hp, rfl⟩ | ⟨hgroup, q, hq, rfl⟩
    · rw [hgroup]
      exact .decompressedG1 hp
    · rw [hgroup]
      exact .decompressedG2 hq
  | combine op left right =>
    obtain ⟨a, ha, h⟩ := exists_of_bind_eq_ok h
    obtain ⟨b, hb, h⟩ := exists_of_bind_eq_ok h
    cases h
    exact combine_replaces_derived op (held_of_element ha) (held_of_element hb)
  | mulInteger operand n =>
    obtain ⟨a, ha, h⟩ := exists_of_bind_eq_ok h
    cases h
    refine (Element.mulInteger_replaces a n).mono fun e v ⟨hcheck, hv⟩ _ ↦ ?_
    rw [group_eq_of_checkCompatible hcheck, hv]
    exact .multiple _ (held_of_element ha)
  | mulScalar operand scalar =>
    obtain ⟨a, ha, h⟩ := exists_of_bind_eq_ok h
    obtain ⟨z, -, h⟩ := exists_of_bind_eq_ok h
    cases h
    refine (Element.mulScalar_replaces a z).mono fun e v ⟨hcheck, k, _, hv⟩ _ ↦ ?_
    rw [group_eq_of_checkCompatible hcheck, hv]
    exact .multiple k (held_of_element ha)
  | powScalar operand scalar =>
    obtain ⟨a, ha, h⟩ := exists_of_bind_eq_ok h
    obtain ⟨z, -, h⟩ := exists_of_bind_eq_ok h
    cases h
    refine (Element.powScalar_replaces a z).mono fun e v ⟨hcheck, k, _, hv⟩ _ ↦ ?_
    rw [group_eq_of_checkCompatible hcheck, hv]
    exact .power k (held_of_element ha)
  | invert operand =>
    obtain ⟨a, ha, h⟩ := exists_of_bind_eq_ok h
    cases h
    refine (Element.invert_replaces a).mono fun e v ⟨hcheck, hv⟩ _ ↦ ?_
    rw [group_eq_of_checkCompatible hcheck]
    exact .inverted (held_of_element ha) hv
  | neg operand =>
    obtain ⟨a, ha, h⟩ := exists_of_bind_eq_ok h
    cases h
    refine (Element.neg_replaces a).mono fun e v ⟨hcheck, hv⟩ _ ↦ ?_
    rw [group_eq_of_checkCompatible hcheck, hv]
    exact .negated (held_of_element ha)
  | square operand =>
    obtain ⟨a, ha, h⟩ := exists_of_bind_eq_ok h
    cases h
    exact combine_replaces_derived .mul (held_of_element ha) (held_of_element ha)
  | double operand =>
    obtain ⟨a, ha, h⟩ := exists_of_bind_eq_ok h
    cases h
    exact combine_replaces_derived .add (held_of_element ha) (held_of_element ha)
  | combineWith op operand =>
    obtain ⟨b, hb, h⟩ := exists_of_bind_eq_ok h
    cases h
    exact (Element.combineWith_replaces op b).mono fun e v ⟨_, hv⟩ he ↦
      .combined he (held_of_element hb) hv
  | powScalarWith scalar =>
    obtain ⟨z, -, h⟩ := exists_of_bind_eq_ok h
    cases h
    refine (Element.powScalarWith_replaces z).mono fun e v ⟨k, _, hv⟩ he ↦ ?_
    rw [hv]
    exact .power k he
  | inverted =>
    cases h
    exact Element.inverted_replaces.mono fun e v hv he ↦ .inverted he hv

/-! ## Calls -/

/-- A call that succeeds takes the session to another. -/
inductive Performed (s : Session B) : Call → Session B → Prop
  /-- A context was built and put under a name. -/
  | createContext {name : String} {description : Description} {c : Context B} :
    description.build B s.created = .ok c → Performed s (.createContext name description)
      { s with created := s.created + 1, contexts := s.contexts.insert name c }
  /-- A context was put under one more name. -/
  | shareContext {name source : String} {c : Context B} :
    s.context source = .ok c → Performed s (.shareContext name source) (s.withContext name c)
  /-- The context under a name was removed. -/
  | dropContext {name : String} :
    Performed s (.dropContext name) { s with contexts := s.contexts.erase name }
  /-- An element was made and put under a name. -/
  | create {name : String} {creation : Creation} {e : Element B} :
    creation.produce s = .ok e → Performed s (.create name creation) (s.withElement name e)
  /-- The element under a name took a value. -/
  | change {name : String} {change : Change} {u : Element.Update B Unit} {e : Element B}
    {v : Value B} : s.element name = .ok e → change.update s = .ok u →
      u.run e = .ok () (e.withValue v) →
      Performed s (.change name change) (s.withChanged name (e.withValue v))

/-- A computation that does not touch the session fails and leaves it, or hands on its result. -/
theorem run_lift {α β : Type} (x : Except Failure α) (f : α → Program B β) (s : Session B) :
    (do f (← x) : Program B β).run s =
      match x with
      | .ok a => (f a).run s
      | .error failure => .error failure s := by
  cases x <;> rfl

theorem withChanged_self (h : s.element name = .ok e) : s.withChanged name e = s := by
  rw [withChanged, Table.replace_self (element_eq_ok_iff.mp h)]

theorem updateElement_run_error {u : Element.Update B Unit} {reason : Error} {e' : Element B}
    (he : s.element name = .ok e) (hu : u.run e = .error reason e') :
    (updateElement name u).run s = .error (.refused reason) (s.withChanged name e') := by
  rw [updateElement, EStateM.run_bind, EStateM.run_get]
  dsimp only
  rw [run_lift, he]
  dsimp only
  rw [hu]
  rfl

theorem updateElement_run_ok {u : Element.Update B Unit} {e' : Element B}
    (he : s.element name = .ok e) (hu : u.run e = .ok () e') :
    (updateElement name u).run s = .ok () (s.withChanged name e') := by
  rw [updateElement, EStateM.run_bind, EStateM.run_get]
  dsimp only
  rw [run_lift, he]
  dsimp only
  rw [hu]
  rfl

/-- An operation on the element under a name fails and leaves the session as it is, or replaces the
value of that element. -/
theorem updateElement_cases {u : Element.Update B Unit} {R : Element B → Value B → Prop}
    (hu : u.Replaces R) (name : String) (s : Session B) :
    (∃ failure, (updateElement name u).run s = .error failure s) ∨
      ∃ e v, s.element name = .ok e ∧ u.run e = .ok () (e.withValue v) ∧
        (updateElement name u).run s = .ok () (s.withChanged name (e.withValue v)) := by
  cases he : s.element name with
  | error failure =>
    refine .inl ⟨failure, ?_⟩
    rw [updateElement, EStateM.run_bind, EStateM.run_get]
    dsimp only
    rw [run_lift, he]
  | ok e =>
    obtain ⟨reason, herror⟩ | ⟨⟨⟩, v, -, hok⟩ := hu e
    -- The operation left the element as it was, and so the session is put back as it was.
    · have hrun := updateElement_run_error he herror
      rw [withChanged_self he] at hrun
      exact .inl ⟨.refused reason, hrun⟩
    · exact .inr ⟨e, v, rfl, hok, updateElement_run_ok he hok⟩

/-- A call that only puts something into the session fails and leaves the session as it was, or does
so. -/
theorem step_of_set {α : Type} (s : Session B) (call : Call) (x : Except Failure α)
    (put : α → Session B)
    (hcall : (perform call).run s = (do set (put (← x)) : Program B Unit).run s) :
    (∃ failure, s.step call = (s, some failure)) ∨
      ∃ a, x = .ok a ∧ s.step call = (put a, none) := by
  rw [run_lift] at hcall
  cases x with
  | error failure =>
    left
    exact ⟨failure, by rw [step, hcall]⟩
  | ok a =>
    right
    exact ⟨a, rfl, by rw [step, hcall]; rfl⟩

/-- A call fails and leaves the session as it was, or it has one of the effects. -/
theorem step_cases (s : Session B) (call : Call) :
    (∃ failure, s.step call = (s, some failure)) ∨
      ∃ s', s.step call = (s', none) ∧ s.Performed call s' := by
  -- The calls that put something into the session differ only in what they put.
  cases call with
  | createContext name description =>
    obtain hfails | ⟨c, hc, hstep⟩ := step_of_set s
      (.createContext name description) (description.build B s.created)
      (fun c ↦ { s with created := s.created + 1, contexts := s.contexts.insert name c }) rfl
    · exact .inl hfails
    · exact .inr ⟨_, hstep, .createContext hc⟩
  | shareContext name source =>
    obtain hfails | ⟨c, hc, hstep⟩ :=
      step_of_set s (.shareContext name source) (s.context source) (s.withContext name) rfl
    · exact .inl hfails
    · exact .inr ⟨_, hstep, .shareContext hc⟩
  | dropContext name => exact .inr ⟨_, rfl, .dropContext⟩
  | create name creation =>
    obtain hfails | ⟨e, he, hstep⟩ :=
      step_of_set s (.create name creation) (creation.produce s) (s.withElement name) rfl
    · exact .inl hfails
    · exact .inr ⟨_, hstep, .create he⟩
  | change name change =>
    have hcall : (perform (.change name change)).run s =
        (do updateElement name (← change.update s) : Program B Unit).run s := rfl
    rw [run_lift] at hcall
    cases hupdate : change.update s with
    | error failure =>
      rw [hupdate] at hcall
      exact .inl ⟨failure, by rw [step, hcall]⟩
    | ok u =>
      rw [hupdate] at hcall
      dsimp only at hcall
      obtain ⟨failure, hfails⟩ | ⟨e, v, he, hu, hok⟩ :=
        updateElement_cases (Change.update_replaces hupdate) name s
      · exact .inl ⟨failure, by rw [step, hcall, hfails]⟩
      · exact .inr ⟨_, by rw [step, hcall, hok], .change he hupdate hu⟩

/-- The value that a change puts in place is derived from the values held. -/
theorem Change.derived_of_run {change : Change} {u : Element.Update B Unit} {v : Value B}
    (hupdate : change.update s = .ok u) (he : s.element name = .ok e)
    (hrun : u.run e = .ok () (e.withValue v)) : Derived s.Held e.group v := by
  obtain ⟨w, hw, heq⟩ := (update_replaces hupdate).of_run hrun
  obtain rfl : v = w := congrArg Element.value heq
  exact hw (held_of_element he)

/-- What is held after a call is derived from what was held before. -/
theorem Performed.derived_of_held {call : Call} (h : s.Performed call s') {v : Value B}
    (hv : s'.Held v) : ∃ g, Derived s.Held g v := by
  obtain ⟨other, o, ho, rfl⟩ := hv
  -- Most names hold what they held before.
  have hkept : s.elements.get? other = some o → ∃ g, Derived s.Held g o.value := fun ho ↦
    ⟨_, .copied ⟨other, o, ho, rfl⟩⟩
  cases h with
  | createContext | shareContext | dropContext => exact hkept ho
  | @create name creation e he =>
    rw [withElement, Table.get?_insert] at ho
    split_ifs at ho with hname
    · cases ho
      exact ⟨_, Creation.produce_derived he⟩
    · exact hkept ho
  | @change name change u e v he hupdate hrun =>
    rw [withChanged, Table.get?_replace, element_eq_ok_iff.mp he, Option.map_some] at ho
    split_ifs at ho with hname
    · cases ho
      exact ⟨_, Change.derived_of_run hupdate he hrun⟩
    · exact hkept ho

/-! ## Runs -/

@[simp] theorem run_nil (s : Session B) : s.run [] = s := rfl

@[simp] theorem run_cons (s : Session B) (call : Call) (calls : List Call) :
    s.run (call :: calls) = (s.step call).1.run calls := rfl

/-- What the effects of the calls preserve holds after the run. -/
theorem run_invariant {I : Session B → Prop} {calls : List Call} (hs : I s)
    (hI : ∀ call ∈ calls, ∀ s s', I s → s.Performed call s' → I s') : I (s.run calls) := by
  induction calls generalizing s with
  | nil => exact hs
  | cons call calls ih =>
    obtain ⟨hcall, hcalls⟩ := List.forall_mem_cons.mp hI
    rw [run_cons]
    obtain ⟨failure, hstep⟩ | ⟨s', hstep, hperformed⟩ := s.step_cases call
    -- A call that fails hands on the session that it was given.
    · rw [hstep]
      exact ih hs hcalls
    · rw [hstep]
      exact ih (hcall s s' hs hperformed) hcalls

/-- Over a backend that stays inside its groups, whatever a run from the empty session holds is an
element of its group. -/
theorem holds_of_held_run {M : B.Membership} (hM : M.Closed) (calls : List Call) :
    ∀ v, ((empty B).run calls).Held v → M.Holds v := by
  refine run_invariant (I := fun s ↦ ∀ v, s.Held v → M.Holds v) ?_ ?_
  · intro v hv
    exact absurd hv (not_held_empty v)
  · intro call _ s s' hs hperformed v hv
    obtain ⟨g, hderived⟩ := hperformed.derived_of_held hv
    exact hM.derived hs hderived

end Session

end BilinearGroups
