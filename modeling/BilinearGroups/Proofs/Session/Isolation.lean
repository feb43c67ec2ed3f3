import BilinearGroups.Proofs.Element.Comparison
import BilinearGroups.Proofs.Pairing.Operands
import BilinearGroups.Proofs.Session.Effect
import BilinearGroups.Proofs.Session.Lineage

/-!
# Contexts do not mix

A call that works on several handles checks that they are of one context before it does anything
with them: the receiver of a change and its operands, a scalar operand among them, and the context
of a pairing and its operands (`Call.participants`). So a call succeeds only where all of them
descend from one creation, and otherwise it is refused and leaves the session as it was. Elements of
different contexts are not equal and in no order.

The numbers that contexts carry are never looked at for anything else. Together with the descent of
handles this is what the identity of contexts comes to over whole runs (`context_lineage`).
-/

namespace BilinearGroups

variable {B : Backend}

/-! ## Checks -/

namespace Context

variable {c : Context B}

theorem sameAs_of_sourcePoints {a b : Element B} {points : B.G1 × B.G2}
    (h : c.sourcePoints a b = .ok points) :
    c.sameAs a.context = true ∧ c.sameAs b.context = true := by
  obtain ⟨ha, hb, -⟩ | ⟨-, herror⟩ | ⟨ha, hb, -⟩ | ⟨ha, hb, -⟩ := c.sourcePoints_cases a b
  · exact ⟨ha, hb⟩
  · rw [herror] at h
    cases h
  · exact ⟨ha, hb⟩
  · exact ⟨ha, hb⟩

theorem sameAs_of_allSourcePoints {as bs : List (Element B)} {points : List (B.G1 × B.G2)}
    (hlength : as.length = bs.length) (h : c.allSourcePoints as bs = .ok points) :
    (∀ a ∈ as, c.sameAs a.context = true) ∧ ∀ b ∈ bs, c.sameAs b.context = true := by
  induction as generalizing bs points with
  | nil =>
    obtain rfl := List.eq_nil_of_length_eq_zero hlength.symm
    exact ⟨List.forall_mem_nil _, List.forall_mem_nil _⟩
  | cons a as ih =>
    obtain ⟨b, bs, rfl⟩ := List.exists_cons_of_length_eq_add_one hlength.symm
    obtain ⟨point, hpoint, h⟩ := exists_of_bind_eq_ok h
    obtain ⟨rest, hrest, -⟩ := exists_of_bind_eq_ok h
    obtain ⟨ha, hb⟩ := sameAs_of_sourcePoints hpoint
    obtain ⟨has, hbs⟩ := ih (Nat.succ.inj hlength) hrest
    exact ⟨List.forall_mem_cons.mpr ⟨ha, has⟩, List.forall_mem_cons.mpr ⟨hb, hbs⟩⟩

end Context

namespace Element

variable {e a z : Element B}

theorem sameAs_of_checkCompatible (h : e.checkCompatible a = .ok ()) :
    e.context.sameAs a.context = true := by
  unfold checkCompatible at h
  split_ifs at h with hcontext
  simpa using hcontext

theorem sameAs_of_scalarOperand {k : B.Scalar} (h : e.scalarOperand z = .ok k) :
    e.context.sameAs z.context = true := by
  unfold scalarOperand at h
  split_ifs at h with hcontext
  simpa using hcontext

theorem sameAs_of_compareEqual {r : Bool} (h : e.compareEqual a = .ok r) :
    e.context.sameAs a.context = true := (compareEqual_eq_ok_iff.mp h).1

end Element

namespace Session

variable {s s' : Session B} {call : Call} {name : String} {e : Element B}

/-! ## Participants -/

/-- The names of the operands of a change, in the order in which they are looked up. -/
def Change.operands : Change → List String
  | value operand | mulInteger operand _ | invert operand | neg operand | square operand
  | double operand | combineWith _ operand => [operand]
  | combine _ left right => [left, right]
  | mulScalar operand scalar | powScalar operand scalar => [operand, scalar]
  | powScalarWith scalar => [scalar]
  | zero | one | integer _ | generator | random _ | hash _ | bytes _ | compressedBytes _
  | inverted => []

/-- The places whose handles have to be of one context: the receiver and the operands of a change,
the context and the operands of a pairing. -/
def Call.participants : Call → List Place
  | .change name kind => .element name :: kind.operands.map .element
  | .create _ (.pairing context left right) =>
    [.context context, .element left, .element right]
  | .create _ (.pairingProduct context lefts rights) =>
    .context context :: (lefts ++ rights).map .element
  | .create _ _ | .createContext _ _ | .shareContext _ _ | .dropContext _ => []

section

variable {u : Element.Update B Unit} {e' : Element B} {R : Element B → Element B → Value B → Prop}
variable {R' : Element B → Element B → Element B → Value B → Prop}

/-- The operand of an operation that checks it is of the context of the receiver. -/
private theorem sameAs_of_operand {f : Element B → Element.Update B Unit} {operand : String}
    (hf : ∀ o, (f o).Replaces (R o)) (hR : ∀ {o e v}, R o e v → e.context.sameAs o.context = true)
    (hupdate : (do return f (← s.element operand)) = Except.ok u) (hrun : u.run e = .ok () e') :
    ∀ x ∈ [operand], ∃ o, s.element x = .ok o ∧ e.context.sameAs o.context = true := by
  obtain ⟨o, ho, h⟩ := exists_of_bind_eq_ok hupdate
  cases h
  obtain ⟨v, hv, -⟩ := (hf o).of_run hrun
  exact List.forall_mem_singleton.mpr ⟨o, ho, hR hv⟩

/-- The operands of an operation that checks both are of the context of the receiver. -/
private theorem sameAs_of_operands {f : Element B → Element B → Element.Update B Unit}
    {left right : String} (hf : ∀ a b, (f a b).Replaces (R' a b))
    (hR : ∀ {a b e v}, R' a b e v →
      e.context.sameAs a.context = true ∧ e.context.sameAs b.context = true)
    (hupdate : (do return f (← s.element left) (← s.element right)) = Except.ok u)
    (hrun : u.run e = .ok () e') :
    ∀ x ∈ [left, right], ∃ o, s.element x = .ok o ∧ e.context.sameAs o.context = true := by
  obtain ⟨a, ha, h⟩ := exists_of_bind_eq_ok hupdate
  obtain ⟨b, hb, h⟩ := exists_of_bind_eq_ok h
  cases h
  obtain ⟨v, hv, -⟩ := (hf a b).of_run hrun
  obtain ⟨hleft, hright⟩ := hR hv
  exact List.forall_mem_cons.mpr
    ⟨⟨a, ha, hleft⟩, List.forall_mem_singleton.mpr ⟨b, hb, hright⟩⟩

open Element (sameAs_of_checkCompatible sameAs_of_scalarOperand)

/-- A change that succeeds has found its operands, and they are of the context of the receiver. -/
theorem Change.sameAs_of_run {change : Change} (hupdate : change.update s = .ok u)
    (hrun : u.run e = .ok () e') : ∀ operand ∈ change.operands,
      ∃ o, s.element operand = .ok o ∧ e.context.sameAs o.context = true := by
  cases change with
  | zero | one | integer | generator | random | hash | bytes | compressedBytes | inverted =>
    exact List.forall_mem_nil _
  | value operand =>
    exact sameAs_of_operand Element.set_replaces
      (fun h ↦ sameAs_of_checkCompatible h.1) hupdate hrun
  | combine op left right =>
    exact sameAs_of_operands (Element.combine_replaces op)
      (fun h ↦ ⟨sameAs_of_checkCompatible h.1, sameAs_of_checkCompatible h.2.1⟩) hupdate hrun
  | mulInteger operand n =>
    exact sameAs_of_operand (fun o ↦ Element.mulInteger_replaces o n)
      (fun h ↦ sameAs_of_checkCompatible h.1) hupdate hrun
  | mulScalar operand scalar =>
    refine sameAs_of_operands Element.mulScalar_replaces ?_ hupdate hrun
    rintro a z e v ⟨hcheck, k, hk, -⟩
    exact ⟨sameAs_of_checkCompatible hcheck, sameAs_of_scalarOperand hk⟩
  | powScalar operand scalar =>
    refine sameAs_of_operands Element.powScalar_replaces ?_ hupdate hrun
    rintro a z e v ⟨hcheck, k, hk, -⟩
    exact ⟨sameAs_of_checkCompatible hcheck, sameAs_of_scalarOperand hk⟩
  | invert operand =>
    exact sameAs_of_operand Element.invert_replaces
      (fun h ↦ sameAs_of_checkCompatible h.1) hupdate hrun
  | neg operand =>
    exact sameAs_of_operand Element.neg_replaces
      (fun h ↦ sameAs_of_checkCompatible h.1) hupdate hrun
  | square operand =>
    exact sameAs_of_operand (fun o ↦ Element.combine_replaces .mul o o)
      (fun h ↦ sameAs_of_checkCompatible h.1) hupdate hrun
  | double operand =>
    exact sameAs_of_operand (fun o ↦ Element.combine_replaces .add o o)
      (fun h ↦ sameAs_of_checkCompatible h.1) hupdate hrun
  | combineWith op operand =>
    exact sameAs_of_operand (Element.combineWith_replaces op)
      (fun h ↦ sameAs_of_checkCompatible h.1) hupdate hrun
  | powScalarWith scalar =>
    refine sameAs_of_operand Element.powScalarWith_replaces ?_ hupdate hrun
    rintro z e v ⟨k, hk, -⟩
    exact sameAs_of_scalarOperand hk

end

/-! ## Calls that succeed -/

theorem handle?_of_elementsOf {c : Context B} {names : List String} {es : List (Element B)}
    (h : s.elementsOf names = .ok es) (hes : ∀ e ∈ es, c.sameAs e.context = true) :
    ∀ name ∈ names, ∃ d, s.handle? (.element name) = some d ∧ c.sameAs d = true := by
  induction names generalizing es with
  | nil => exact List.forall_mem_nil _
  | cons name names ih =>
    obtain ⟨e, he, h⟩ := exists_of_bind_eq_ok h
    obtain ⟨rest, hrest, h⟩ := exists_of_bind_eq_ok h
    cases h
    obtain ⟨hsame, hrest'⟩ := List.forall_mem_cons.mp hes
    exact List.forall_mem_cons.mpr ⟨⟨_, handle?_of_element he, hsame⟩, ih hrest hrest'⟩

/-- Where a call succeeds, the handles that take part in it are of one context. -/
theorem Performed.exists_context (h : s.Performed call s') : ∃ c : Context B,
    ∀ place ∈ call.participants, ∃ d, s.handle? place = some d ∧ c.sameAs d = true := by
  cases h with
  | createContext | shareContext | dropContext => exact ⟨.standard B, List.forall_mem_nil _⟩
  | @create name creation e he =>
    cases creation with
    | fresh | freshLike | copy | ofBytes | ofCompressedBytes | ofJson =>
      exact ⟨.standard B, List.forall_mem_nil _⟩
    | pairing context left right =>
      obtain ⟨c, hc, h⟩ := exists_of_bind_eq_ok he
      obtain ⟨a, ha, h⟩ := exists_of_bind_eq_ok h
      obtain ⟨b, hb, h⟩ := exists_of_bind_eq_ok h
      obtain ⟨point, hpoint, -⟩ := exists_of_bind_eq_ok (accept_eq_ok_iff.mp h)
      obtain ⟨hleft, hright⟩ := Context.sameAs_of_sourcePoints hpoint
      refine ⟨c, List.forall_mem_cons.mpr ⟨⟨c, handle?_of_context hc, c.sameAs_self⟩,
        List.forall_mem_cons.mpr ⟨⟨_, handle?_of_element ha, hleft⟩,
          List.forall_mem_singleton.mpr ⟨_, handle?_of_element hb, hright⟩⟩⟩⟩
    | pairingProduct context lefts rights =>
      obtain ⟨c, hc, h⟩ := exists_of_bind_eq_ok he
      obtain ⟨as, has, h⟩ := exists_of_bind_eq_ok h
      obtain ⟨bs, hbs, h⟩ := exists_of_bind_eq_ok h
      obtain ⟨hlength, points, -, hpoints, -⟩ :=
        Context.exists_points_of_pairingProduct (accept_eq_ok_iff.mp h)
      obtain ⟨hlefts, hrights⟩ := Context.sameAs_of_allSourcePoints hlength hpoints
      refine ⟨c, List.forall_mem_cons.mpr ⟨⟨c, handle?_of_context hc, c.sameAs_self⟩, ?_⟩⟩
      rw [List.forall_mem_map]
      intro name hname
      rcases List.mem_append.mp hname with hname | hname
      · exact handle?_of_elementsOf has hlefts name hname
      · exact handle?_of_elementsOf hbs hrights name hname
  | @change name kind u e v he hupdate hrun =>
    refine ⟨e.context, List.forall_mem_cons.mpr
      ⟨⟨_, handle?_of_element he, e.context.sameAs_self⟩, ?_⟩⟩
    rw [List.forall_mem_map]
    intro operand hoperand
    obtain ⟨o, ho, hsame⟩ := Change.sameAs_of_run hupdate hrun operand hoperand
    exact ⟨_, handle?_of_element ho, hsame⟩

/-! ## Calls that are refused -/

theorem exists_context_of_handle? {c : Context B} (h : s.handle? (.context name) = some c) :
    s.context name = .ok c := by
  unfold context
  rw [show s.contexts.get? name = some c from h]

theorem exists_element_of_handle? {c : Context B} (h : s.handle? (.element name) = some c) :
    ∃ e, s.element name = .ok e := by
  obtain ⟨e, he, -⟩ := Option.map_eq_some_iff.mp h
  exact ⟨e, element_eq_ok_iff.mpr he⟩

theorem exists_elementsOf {names : List String} (h : ∀ name ∈ names, ∃ e, s.element name = .ok e) :
    ∃ es, s.elementsOf names = .ok es := by
  induction names with
  | nil => exact ⟨[], rfl⟩
  | cons name names ih =>
    obtain ⟨⟨e, he⟩, hnames⟩ := List.forall_mem_cons.mp h
    obtain ⟨es, hes⟩ := ih hnames
    refine ⟨e :: es, ?_⟩
    rw [elementsOf, he, hes]
    rfl

/-- A change whose operands are there can be tried. -/
theorem Change.exists_update {change : Change}
    (h : ∀ operand ∈ change.operands, ∃ o, s.element operand = .ok o) :
    ∃ u, change.update s = .ok u := by
  cases change with
  | zero | one | integer | generator | random | hash | bytes | compressedBytes | inverted =>
    exact ⟨_, rfl⟩
  | value operand | mulInteger operand | invert operand | neg operand | square operand
  | double operand | combineWith _ operand | powScalarWith operand =>
    obtain ⟨o, ho⟩ := h operand (List.mem_singleton_self _)
    rw [update, ho]
    exact ⟨_, rfl⟩
  | combine _ left right | mulScalar left right | powScalar left right =>
    obtain ⟨⟨a, ha⟩, hright⟩ := List.forall_mem_cons.mp h
    obtain ⟨b, hb⟩ := hright right (List.mem_singleton_self _)
    rw [update, ha, hb]
    exact ⟨_, rfl⟩

theorem accept_bind_eq_error {α β : Type} {x : Except Error α} {f : α → β} {failure : Failure}
    (h : (do return f (← accept x)) = Except.error failure) :
    ∃ reason, failure = .refused reason := by
  cases x with
  | error reason =>
    cases h
    exact ⟨reason, rfl⟩
  | ok a => cases h

/-- Where the handles that take part in a call are there, only the library refuses. -/
theorem exists_reason_of_effect {failure : Failure} (hparticipants : call.participants ≠ [])
    (hheld : ∀ place ∈ call.participants, ∃ c, s.handle? place = some c)
    (h : s.effect call = .error failure) : ∃ reason, failure = .refused reason := by
  cases call with
  | createContext | shareContext | dropContext => exact absurd rfl hparticipants
  | create name creation =>
    cases creation with
    | fresh | freshLike | copy | ofBytes | ofCompressedBytes | ofJson =>
      exact absurd rfl hparticipants
    | pairing context left right =>
      obtain ⟨⟨c, hc⟩, hoperands⟩ := List.forall_mem_cons.mp hheld
      obtain ⟨⟨_, ha⟩, hright⟩ := List.forall_mem_cons.mp hoperands
      obtain ⟨_, hb⟩ := hright _ (List.mem_singleton_self _)
      obtain ⟨a, ha⟩ := exists_element_of_handle? ha
      obtain ⟨b, hb⟩ := exists_element_of_handle? hb
      rw [effect, Creation.produce, exists_context_of_handle? hc, ha, hb] at h
      exact accept_bind_eq_error h
    | pairingProduct context lefts rights =>
      obtain ⟨⟨c, hc⟩, hoperands⟩ := List.forall_mem_cons.mp hheld
      have helements : ∀ name ∈ lefts ++ rights, ∃ e, s.element name = .ok e := by
        intro name hname
        obtain ⟨_, h⟩ := hoperands _ (List.mem_map_of_mem hname)
        exact exists_element_of_handle? h
      obtain ⟨hlefts, hrights⟩ := List.forall_mem_append.mp helements
      obtain ⟨as, has⟩ := exists_elementsOf hlefts
      obtain ⟨bs, hbs⟩ := exists_elementsOf hrights
      rw [effect, Creation.produce, exists_context_of_handle? hc, has, hbs] at h
      exact accept_bind_eq_error h
  | change name kind =>
    obtain ⟨⟨_, he⟩, hoperands⟩ := List.forall_mem_cons.mp hheld
    obtain ⟨e, he⟩ := exists_element_of_handle? he
    obtain ⟨u, hu⟩ : ∃ u, kind.update s = .ok u := by
      apply Change.exists_update
      intro operand hoperand
      obtain ⟨_, h⟩ := hoperands _ (List.mem_map_of_mem hoperand)
      exact exists_element_of_handle? h
    rw [effect, hu, he] at h
    exact accept_bind_eq_error h

/-- A call whose participants are there and not of one context is refused, and changes nothing. -/
theorem exists_step_eq_refused
    (hheld : ∀ place ∈ call.participants, ∃ c, s.handle? place = some c)
    (hforeign : ¬ ∃ c : Context B, ∀ place ∈ call.participants,
      ∃ d, s.handle? place = some d ∧ c.sameAs d = true) :
    ∃ reason, s.step call = (s, some (.refused reason)) := by
  have hparticipants : call.participants ≠ [] := by
    intro hnil
    rw [hnil] at hforeign
    exact hforeign ⟨.standard B, List.forall_mem_nil _⟩
  obtain ⟨failure, hfails⟩ | ⟨s', -, hperformed⟩ := s.step_cases call
  · have heffect := hfails
    rw [step_eq_effect] at heffect
    cases h : s.effect call with
    | ok next =>
      rw [h] at heffect
      cases heffect
    | error failure' =>
      rw [h] at heffect
      obtain rfl : failure' = failure := Option.some.inj (congrArg Prod.snd heffect)
      obtain ⟨reason, rfl⟩ := exists_reason_of_effect hparticipants hheld h
      exact ⟨reason, hfails⟩
  · exact absurd hperformed.exists_context hforeign

/-! ## Whole runs -/

/-- The participants of a call descend from one creation exactly if their handles are of one
context. -/
theorem exists_origin_iff {calls : List Call} {places : List Place}
    (hheld : ∀ place ∈ places, ∃ c, ((empty B).run calls).handle? place = some c) :
    (∃ i, ∀ place ∈ places, origin B calls place = some i) ↔
      ∃ c : Context B, ∀ place ∈ places,
        ∃ d, ((empty B).run calls).handle? place = some d ∧ c.sameAs d = true := by
  cases places with
  | nil => exact iff_of_true ⟨0, List.forall_mem_nil _⟩ ⟨.standard B, List.forall_mem_nil _⟩
  | cons first places =>
    obtain ⟨c, hc⟩ := hheld first List.mem_cons_self
    obtain ⟨i, hi, -⟩ := exists_origin hc
    constructor
    · rintro ⟨j, hj⟩
      refine ⟨c, fun place hplace ↦ ?_⟩
      obtain ⟨d, hd⟩ := hheld place hplace
      exact ⟨d, hd, (sameAs_iff_origin hc hd).mpr
        ((hj first List.mem_cons_self).trans (hj place hplace).symm)⟩
    · rintro ⟨c', hc'⟩
      refine ⟨i, fun place hplace ↦ ?_⟩
      obtain ⟨d, hd, hsame⟩ := hc' place hplace
      obtain ⟨d', hd', hsame'⟩ := hc' first List.mem_cons_self
      obtain rfl : d' = c := Option.some.inj (hd'.symm.trans hc)
      rw [← hi]
      exact (sameAs_iff_origin hd hc).mp (Context.sameAs_of_common hsame hsame')

/-- **The identity of contexts.** After every run from the empty session:

* a handle that is held descends from a call that created its context;
* two handles are of one context exactly if they descend from one creation, which is also what the
  addresses of contexts say, or any other labels that are not chosen while they are in use;
* a new context is not that of any other handle, whatever it was built from;
* an element keeps its context and its descent, whatever happens to other handles;
* a call that succeeds had all its participants descend from one creation, and otherwise it is
  refused and leaves the session as it was;
* elements that do not descend from one creation cannot be compared, are not equal and in no
  order. -/
theorem context_lineage (B : Backend) (calls : List Call) :
    let s := (empty B).run calls
    (∀ place c, s.handle? place = some c →
      ∃ i, origin B calls place = some i ∧ CreatedAt calls i c) ∧
    (∀ p q c d, s.handle? p = some c → s.handle? q = some d →
      (c.sameAs d = true ↔ origin B calls p = origin B calls q) ∧
      ∀ {α : Type} (L : Labelling α), L.IsFresh B →
        (c.sameAs d = true ↔ labels B L calls p = labels B L calls q)) ∧
    (∀ name description c, description.build B s.created = .ok c → ∀ place d,
      s.handle? place = some d → c.sameAs d = false ∧
        s.step (.createContext name description)
          = ({ s with created := s.created + 1, contexts := s.contexts.insert name c }, none)) ∧
    (∀ later x e, s.elements.get? x = some e → (∀ creation, .create x creation ∉ later) →
      ∃ v, (s.run later).elements.get? x = some (e.withValue v) ∧
        origin B (calls ++ later) (.element x) = origin B calls (.element x)) ∧
    (∀ call : Call, (s.step call).2 = none →
      ∃ i, ∀ place ∈ call.participants, origin B calls place = some i) ∧
    (∀ call : Call, (∀ place ∈ call.participants, s.handle? place ≠ none) →
      (¬ ∃ i, ∀ place ∈ call.participants, origin B calls place = some i) →
        ∃ reason, s.step call = (s, some (.refused reason))) ∧
    (∀ x y a b, s.elements.get? x = some a → s.elements.get? y = some b →
      (∀ r, a.compareEqual b = .ok r →
        origin B calls (.element x) = origin B calls (.element y)) ∧
      (origin B calls (.element x) ≠ origin B calls (.element y) →
        a.compareEqual b = .error .wrongContext ∧ a.equal b = false ∧
          a.partialCompare b = none ∧ a.less b = false ∧ a.greaterOrEqual b = false)) := by
  intro s
  have hhandle : ∀ {x e}, s.elements.get? x = some e →
      s.handle? (.element x) = some e.context := fun h ↦ congrArg (Option.map Element.context) h
  refine ⟨fun place c ↦ exists_origin, ?_, ?_, ?_, ?_, ?_, ?_⟩
  · intro p q c d hp hq
    exact ⟨sameAs_iff_origin hp hq, fun L hL ↦ hL.sameAs_iff hp hq⟩
  · intro name description c hbuild place d hd
    constructor
    · have hlt := numbers_lt_run calls place d.creation (congrArg (Option.map Context.creation) hd)
      rw [← Bool.not_eq_true, Context.sameAs_iff, Description.creation_of_build hbuild]
      exact (Nat.ne_of_lt hlt).symm
    · rw [step_eq_effect, effect, hbuild]
      rfl
  · intro later x e he hname
    obtain ⟨v, hv, -⟩ := run_get?_elements_eq_some he hname
    refine ⟨v, hv, labels_append calls fun call hcall ↦ Call.descent_element ?_⟩
    intro creation hcreate
    exact hname creation (hcreate ▸ hcall)
  · intro call hsucceeds
    obtain ⟨failure, hstep⟩ | ⟨s', -, hperformed⟩ := s.step_cases call
    · rw [hstep] at hsucceeds
      cases hsucceeds
    · obtain ⟨c, hc⟩ := hperformed.exists_context
      have hheld : ∀ place ∈ call.participants, ∃ c, s.handle? place = some c := by
        intro place hplace
        obtain ⟨d, hd, -⟩ := hc place hplace
        exact ⟨d, hd⟩
      exact (exists_origin_iff hheld).mpr ⟨c, hc⟩
  · intro call hheld hforeign
    have hheld' : ∀ place ∈ call.participants, ∃ c, s.handle? place = some c :=
      fun place hplace ↦ Option.ne_none_iff_exists'.mp (hheld place hplace)
    rw [exists_origin_iff hheld'] at hforeign
    exact exists_step_eq_refused hheld' hforeign
  · intro x y a b ha hb
    have hsame := sameAs_iff_origin (hhandle ha) (hhandle hb)
    constructor
    · intro r hr
      exact hsame.mp (Element.sameAs_of_compareEqual hr)
    · intro hforeign
      apply Element.comparisons_of_foreign
      rw [← Bool.not_eq_true, hsame]
      exact hforeign

/-- Three contexts from equal parameters, the last under the name that the first had before it was
dropped; and an element of each of the first two. -/
def recreatedCalls : List Call :=
  [.createContext "c" .standard, .createContext "d" .standard, .shareContext "e" "c",
    .create "P" (.fresh "e" .g1), .create "Q" (.fresh "d" .g1), .dropContext "c",
    .dropContext "e", .createContext "c" .standard]

theorem context_lineage_recreated :
    let s := (empty exponentModel).run recreatedCalls
    ∃ p q c : Context exponentModel, s.handle? (.element "P") = some p ∧
      s.handle? (.element "Q") = some q ∧ s.handle? (.context "c") = some c ∧
      p.parameters = c.parameters ∧ p.parameters = q.parameters ∧
      p.sameAs c = false ∧ p.sameAs q = false ∧
      origin exponentModel recreatedCalls (.element "P") = some 0 ∧
      labels exponentModel leastFree recreatedCalls (.element "P")
        ≠ labels exponentModel leastFree recreatedCalls (.context "c") ∧
      (s.step (.change "P" .generator)).2 = none ∧
      ∃ reason, s.step (.change "P" (.value "Q")) = (s, some (.refused reason)) := by
  intro s
  obtain ⟨-, hidentity, -, -, -, hrefused, -⟩ := context_lineage exponentModel recreatedCalls
  have hnew := hidentity (.element "P") (.context "c") _ _ rfl rfl
  have hother := hidentity (.element "P") (.element "Q") _ _ rfl rfl
  have hforeign : origin exponentModel recreatedCalls (.element "P")
      ≠ origin exponentModel recreatedCalls (.context "c") := by decide
  refine ⟨_, _, _, rfl, rfl, rfl, rfl, rfl, ?_, ?_, rfl, ?_, rfl, ?_⟩
  · rw [← Bool.not_eq_true, hnew.1]
    exact hforeign
  · rw [← Bool.not_eq_true, hother.1]
    decide
  · intro hlabels
    exact hforeign (hnew.1.mp ((hnew.2 leastFree leastFree_isFresh).mpr hlabels))
  · refine hrefused (.change "P" (.value "Q")) ?_ ?_
    · simp only [Call.participants, Change.operands, List.map_cons, List.map_nil,
        List.forall_mem_cons]
      exact ⟨nofun, nofun, List.forall_mem_nil _⟩
    · rintro ⟨i, hi⟩
      have hp : some 0 = some i := hi (.element "P") (by decide)
      have hq : some 1 = some i := hi (.element "Q") (by decide)
      exact absurd (hp.trans hq.symm) (by decide)

end Session

end BilinearGroups
