import BilinearGroups.Proofs.Element.Matching
import BilinearGroups.Proofs.Session.Effect
import BilinearGroups.Proofs.Session.Lineage
import BilinearGroups.Session.Report

/-!
# Matching sessions

Sessions match at some places if they hold matching contexts and elements there. A request that is
made of both, that uses these places alone and that stays within what the backends do alike
(`Session.Within`), fails on both sides for the same reason or succeeds on both sides; the reports
on it are about matching contexts and elements, and the sessions match afterwards. What else the
sessions hold does not matter, and neither does how many contexts each of them has created: the
contexts that are created from now on are renumbered like those before.
-/

namespace BilinearGroups

namespace Session

/-! ## Places that a request uses -/

/-- The places that a new element is made from. -/
def Creation.uses : Creation → List Place
  | fresh context _ | ofBytes context _ _ | ofCompressedBytes context _ _ | ofJson context _ _ =>
    [.context context]
  | freshLike operand | copy operand => [.element operand]
  | pairing context left right => [.context context, .element left, .element right]
  | pairingProduct context lefts rights =>
    .context context :: (lefts.map .element ++ rights.map .element)

/-- The places of the operands of a change. -/
def Change.uses : Change → List Place
  | zero | one | integer _ | generator | random _ | hash _ | bytes _ | compressedBytes _
  | inverted => []
  | value operand | mulInteger operand _ | invert operand | neg operand | square operand
  | double operand | combineWith _ operand | powScalarWith operand => [.element operand]
  | combine _ left right => [.element left, .element right]
  | mulScalar operand scalar | powScalar operand scalar => [.element operand, .element scalar]

/-- The place that a call is about. -/
def Call.place : Call → Place
  | .createContext name _ | .shareContext name _ | .dropContext name => .context name
  | .create name _ | .change name _ => .element name

/-- The places that a call uses. -/
def Call.uses : Call → List Place
  | .createContext name _ | .dropContext name => [.context name]
  | .shareContext name source => [.context name, .context source]
  | .create name c => .element name :: c.uses
  | .change name c => .element name :: c.uses

theorem Call.place_mem_uses (call : Call) : call.place ∈ call.uses := by
  cases call <;> exact List.mem_cons_self

/-- The places that a question is about. -/
def Query.uses : Query → List Place
  | .context name => [.context name]
  | .sameContext left right => [.context left, .context right]
  | .belongs operand c => [.element operand, .context c]
  | .compare left right => [.element left, .element right]
  | .inspect operand | .json operand => [.element operand]

/-- The places that a request uses. -/
def Request.uses : Request → List Place
  | .call c => c.uses
  | .query q => q.uses

/-! ## What a request does -/

section Scope

variable {B : Backend} (scope : Scope) (s : Session B)

/-- The new element is made within a scope. -/
def Creation.Within : Creation → Prop
  | .ofBytes _ g bs => scope.Reads g bs
  | .ofCompressedBytes .. => scope.Decompresses
  | .ofJson _ accepted? text => ∀ g bs rest,
    Element.record.read text.toList = .ok ((g, bs), rest) → accepted?.getD g = g → scope.Reads g bs
  | .pairing _ left right =>
    (∀ a, s.element left = .ok a → scope.Left a.group) ∧
      ∀ b, s.element right = .ok b → scope.Right b.group
  | .pairingProduct _ lefts rights =>
    (∀ as, s.elementsOf lefts = .ok as → ∀ a ∈ as, scope.Left a.group) ∧
      ∀ bs, s.elementsOf rights = .ok bs → ∀ b ∈ bs, scope.Right b.group
  | .fresh .. | .freshLike .. | .copy .. => True

/-- An element of a group is changed within a scope. -/
def Change.Within (change : Change) (g : Group) : Prop :=
  match change with
  | .bytes encoding => scope.Reads g encoding
  | .compressedBytes _ => scope.Decompresses
  | .random _ => scope.Draws
  | .hash _ => scope.Hashes
  | _ => True

/-- The request stays within a scope. -/
def Within : Request → Prop
  | .call (.create _ creation) => creation.Within scope s
  | .call (.change name change) => ∀ e, s.element name = .ok e → change.Within scope e.group
  | .call (.createContext ..) | .call (.shareContext ..) | .call (.dropContext ..) | .query _ =>
    True

end Scope

end Session

namespace Matching

open Session

variable {B B' : Backend} {X : Matching B B'} {ρ : ℕ ↪o ℕ} {P : Place → Prop}
  {s : Session B} {s' : Session B'} {name : String}

/-! ## Sessions -/

/-- The sessions hold matching contexts and elements at some places, and the contexts that are
created from now on match as well. -/
structure Sessions (X : Matching B B') (ρ : ℕ ↪o ℕ) (P : Place → Prop) (s : Session B)
    (s' : Session B') : Prop where
  created (n : ℕ) : ρ (s.created + n) = s'.created + n
  contexts {name : String} : P (.context name) →
    Option.Rel (Contexts ρ) (s.contexts.get? name) (s'.contexts.get? name)
  elements {name : String} : P (.element name) →
    Option.Rel (X.Elements ρ) (s.elements.get? name) (s'.elements.get? name)

namespace Sessions

theorem empty (X : Matching B B') (P : Place → Prop) :
    X.Sessions (RelEmbedding.refl _) P (.empty B) (.empty B') :=
  ⟨fun _ ↦ rfl, fun _ ↦ .none, fun _ ↦ .none⟩

theorem context (h : X.Sessions ρ P s s') (hP : P (.context name)) :
    Agree (Contexts ρ) (s.context name) (s'.context name) := by
  rw [Session.context, Session.context]
  obtain ⟨hs, hs'⟩ | ⟨c, c', hs, hs', hc⟩ := eq_none_or_eq_some (h.contexts hP)
  · rw [hs, hs']
    exact .error _
  · rw [hs, hs']
    exact .ok hc

theorem element (h : X.Sessions ρ P s s') (hP : P (.element name)) :
    Agree (X.Elements ρ) (s.element name) (s'.element name) := by
  rw [Session.element, Session.element]
  obtain ⟨hs, hs'⟩ | ⟨e, e', hs, hs', he⟩ := eq_none_or_eq_some (h.elements hP)
  · rw [hs, hs']
    exact .error _
  · rw [hs, hs']
    exact .ok he

theorem elementsOf (h : X.Sessions ρ P s s') {names : List String}
    (hP : ∀ name ∈ names, P (.element name)) :
    Agree (List.Forall₂ (X.Elements ρ)) (s.elementsOf names) (s'.elementsOf names) := by
  induction names with
  | nil => exact .ok .nil
  | cons name names ih =>
    rw [List.forall_mem_cons] at hP
    exact (h.element hP.1).bind fun _ _ he ↦ (ih hP.2).bind fun _ _ hes ↦ .ok (.cons he hes)

/-! ### Effects -/

theorem withContext (h : X.Sessions ρ P s s') {c : Context B} {c' : Context B'}
    (hc : Contexts ρ c c') : X.Sessions ρ P (s.withContext name c) (s'.withContext name c') := by
  refine ⟨h.created, fun hP ↦ ?_, h.elements⟩
  rw [Session.withContext, Session.withContext, Table.get?_insert, Table.get?_insert]
  split_ifs
  · exact .some hc
  · exact h.contexts hP

theorem withNewContext (h : X.Sessions ρ P s s') {c : Context B} {c' : Context B'}
    (hc : Contexts ρ c c') :
    X.Sessions ρ P { s with created := s.created + 1, contexts := s.contexts.insert name c }
      { s' with created := s'.created + 1, contexts := s'.contexts.insert name c' } := by
  refine ⟨fun n ↦ ?_, (h.withContext hc).contexts, h.elements⟩
  rw [Nat.add_assoc, Nat.add_assoc]
  exact h.created (1 + n)

theorem withElement (h : X.Sessions ρ P s s') {e : Element B} {e' : Element B'}
    (he : X.Elements ρ e e') : X.Sessions ρ P (s.withElement name e) (s'.withElement name e') := by
  refine ⟨h.created, h.contexts, fun hP ↦ ?_⟩
  rw [Session.withElement, Session.withElement, Table.get?_insert, Table.get?_insert]
  split_ifs
  · exact .some he
  · exact h.elements hP

theorem withChanged (h : X.Sessions ρ P s s') {e : Element B} {e' : Element B'}
    (he : X.Elements ρ e e') : X.Sessions ρ P (s.withChanged name e) (s'.withChanged name e') := by
  refine ⟨h.created, h.contexts, @fun other hP ↦ ?_⟩
  rw [Session.withChanged, Session.withChanged, Table.get?_replace, Table.get?_replace]
  split_ifs with hname
  · subst hname
    obtain ⟨hs, hs'⟩ | ⟨_, _, hs, hs', -⟩ := eq_none_or_eq_some (h.elements hP)
    · rw [hs, hs']
      exact .none
    · rw [hs, hs']
      exact .some he
  · exact h.elements hP

theorem withoutContext (h : X.Sessions ρ P s s') :
    X.Sessions ρ P { s with contexts := s.contexts.erase name }
      { s' with contexts := s'.contexts.erase name } := by
  refine ⟨h.created, fun hP ↦ ?_, h.elements⟩
  rw [Table.get?_erase, Table.get?_erase]
  split_ifs
  · exact .none
  · exact h.contexts hP

/-! ### Calls -/

theorem create (h : X.Sessions ρ P s s') (p : Parameters) :
    Agree (Contexts ρ) (Context.create B s.created p) (Context.create B' s'.created p) := by
  unfold Context.create
  cases p.validate with
  | error reason => exact .error _
  | ok => exact .ok ⟨(h.created 0).symm, rfl, X.orderBytes, rfl⟩

theorem build (h : X.Sessions ρ P s s') (description : Description) :
    Agree (Contexts ρ) (description.build B s.created) (description.build B' s'.created) := by
  cases description with
  | standard => exact (h.create .default).mapError Failure.refused
  | domain hashDomain =>
    exact (h.create (Parameters.default.withHashDomain hashDomain)).mapError Failure.refused
  | json source =>
    rw [Description.build, Description.build]
    cases readable (Parameters.ofJson source) with
    | error failure => exact .error failure
    | ok p => exact (h.create p).mapError Failure.refused
  | text source =>
    rw [Description.build, Description.build, Context.ofDescription, Context.ofDescription]
    cases Parameters.parse source with
    | error reason => exact .error _
    | ok p => exact (h.create p).mapError Failure.refused

end Sessions

namespace Sessions

theorem produce (h : X.Sessions ρ P s s') {creation : Creation}
    (hP : ∀ place ∈ creation.uses, P place) (hwithin : creation.Within X.toScope s) :
    Agree (X.Elements ρ) (creation.produce s) (creation.produce s') := by
  cases creation with
  | fresh context g =>
    have hcontext := h.context (hP _ List.mem_cons_self)
    exact hcontext.bind fun _ _ hc ↦ .ok (.fresh hc g)
  | freshLike operand =>
    have hoperand := h.element (hP _ List.mem_cons_self)
    exact hoperand.bind fun _ _ ha ↦ .ok ha.freshLike
  | copy operand => exact h.element (hP _ List.mem_cons_self)
  | ofBytes context g bytes =>
    have hcontext := h.context (hP _ List.mem_cons_self)
    exact hcontext.bind fun _ _ hc ↦ (hc.ofBytes hwithin).mapError Failure.refused
  | ofCompressedBytes context g bytes =>
    have hcontext := h.context (hP _ List.mem_cons_self)
    exact hcontext.bind fun _ _ hc ↦
      (hc.ofCompressedBytes hwithin g bytes).mapError Failure.refused
  | ofJson context accepted? text =>
    have hcontext := h.context (hP _ List.mem_cons_self)
    exact hcontext.bind fun _ _ hc ↦ ((hc.readJson hwithin).mapError Failure.unreadable).bind
      fun _ _ he ↦ .ok he
  | pairing context left right =>
    simp only [Creation.uses, List.forall_mem_cons] at hP
    refine (h.context hP.1).bind fun _ _ hc ↦ (h.element hP.2.1).attach.bind fun _ _ ⟨hs, ha⟩ ↦ ?_
    exact (h.element hP.2.2.1).attach.bind fun _ _ ⟨ht, hb⟩ ↦
      (hc.pair ha hb (hwithin.1 _ hs) (hwithin.2 _ ht)).mapError Failure.refused
  | pairingProduct context lefts rights =>
    simp only [Creation.uses, List.forall_mem_cons, List.forall_mem_append, List.forall_mem_map]
      at hP
    refine (h.context hP.1).bind fun _ _ hc ↦ ?_
    refine (h.elementsOf hP.2.1).attach.bind fun _ _ ⟨hs, has⟩ ↦ ?_
    exact (h.elementsOf hP.2.2).attach.bind fun _ _ ⟨ht, hbs⟩ ↦
      (hc.pairingProduct has hbs (hwithin.1 _ hs) (hwithin.2 _ ht)).mapError Failure.refused

theorem update (h : X.Sessions ρ P s s') {change : Change} (hP : ∀ place ∈ change.uses, P place) :
    Agree (X.Updates ρ (change.Within X.toScope)) (change.update s) (change.update s') := by
  cases change with
  | zero => exact .ok .setZero
  | one => exact .ok .setOne
  | integer n => exact .ok (.setInteger n)
  | generator => exact .ok .setGenerator
  | random supply => exact .ok (.setRandom supply)
  | hash message => exact .ok (.setFromHash message)
  | bytes encoding => exact .ok (.setFromBytes encoding)
  | compressedBytes encoding => exact .ok (.setFromCompressedBytes encoding)
  | inverted => exact .ok .inverted
  | value operand =>
    exact (h.element (hP _ List.mem_cons_self)).bind fun _ _ ha ↦ .ok (.set ha)
  | mulInteger operand n =>
    exact (h.element (hP _ List.mem_cons_self)).bind fun _ _ ha ↦ .ok (.mulInteger ha n)
  | invert operand =>
    exact (h.element (hP _ List.mem_cons_self)).bind fun _ _ ha ↦ .ok (.invert ha)
  | neg operand => exact (h.element (hP _ List.mem_cons_self)).bind fun _ _ ha ↦ .ok (.neg ha)
  | square operand =>
    exact (h.element (hP _ List.mem_cons_self)).bind fun _ _ ha ↦ .ok (.combine .mul ha ha)
  | double operand =>
    exact (h.element (hP _ List.mem_cons_self)).bind fun _ _ ha ↦ .ok (.combine .add ha ha)
  | combineWith op operand =>
    exact (h.element (hP _ List.mem_cons_self)).bind fun _ _ hb ↦ .ok (.combineWith op hb)
  | powScalarWith scalar =>
    exact (h.element (hP _ List.mem_cons_self)).bind fun _ _ hz ↦ .ok (.powScalarWith hz)
  | combine op left right =>
    simp only [Change.uses, List.forall_mem_cons] at hP
    exact (h.element hP.1).bind fun _ _ ha ↦ (h.element hP.2.1).bind fun _ _ hb ↦
      .ok (.combine op ha hb)
  | mulScalar operand scalar =>
    simp only [Change.uses, List.forall_mem_cons] at hP
    exact (h.element hP.1).bind fun _ _ ha ↦ (h.element hP.2.1).bind fun _ _ hz ↦
      .ok (.mulScalar ha hz)
  | powScalar operand scalar =>
    simp only [Change.uses, List.forall_mem_cons] at hP
    exact (h.element hP.1).bind fun _ _ ha ↦ (h.element hP.2.1).bind fun _ _ hz ↦
      .ok (.powScalar ha hz)

/-- A call fails for the same reason, or leads matching sessions to matching ones. -/
theorem effect (h : X.Sessions ρ P s s') {call : Call} (hP : ∀ place ∈ call.uses, P place)
    (hwithin : s.Within X.toScope (.call call)) :
    Agree (X.Sessions ρ P) (s.effect call) (s'.effect call) := by
  cases call with
  | createContext name description =>
    exact (h.build description).bind fun _ _ hc ↦ .ok (h.withNewContext hc)
  | shareContext name source =>
    simp only [Call.uses, List.forall_mem_cons] at hP
    exact (h.context hP.2.1).bind fun _ _ hc ↦ .ok (h.withContext hc)
  | dropContext name => exact .ok h.withoutContext
  | create name creation =>
    rw [Call.uses, List.forall_mem_cons] at hP
    exact (h.produce hP.2 hwithin).bind fun _ _ he ↦ .ok (h.withElement he)
  | change name change =>
    rw [Call.uses, List.forall_mem_cons] at hP
    refine (h.update hP.2).bind fun u u' hu ↦ ?_
    refine (h.element hP.1).attach.bind fun e e' ⟨hs, he⟩ ↦ ?_
    exact ((hu e e' he (hwithin e hs)).mapError Failure.refused).bind fun _ _ hnext ↦
      .ok (h.withChanged hnext)

end Sessions

/-! ## Reports -/

/-- The reports are the same, or are about matching contexts or elements. -/
inductive Reports (X : Matching B B') (ρ : ℕ ↪o ℕ) : Report → Report → Prop
  /-- The request failed for the same reason. -/
  | failed (failure : Failure) : Reports X ρ (.failed failure) (.failed failure)
  /-- Matching contexts were put under a name. -/
  | context {c : Context B} {c' : Context B'} : Contexts ρ c c' →
    Reports X ρ (.context c.debugText) (.context c'.debugText)
  /-- Contexts were removed, if there were any. -/
  | dropped (existed : Bool) : Reports X ρ (.dropped existed) (.dropped existed)
  /-- Matching elements were made or changed, or their change failed for the same reason. -/
  | element {e : Element B} {e' : Element B'} (failure? : Option Failure) : X.Elements ρ e e' →
    Reports X ρ (.element e.group e.toBytes failure?) (.element e'.group e'.toBytes failure?)
  /-- The question was about matching contexts. -/
  | info {c : Context B} {c' : Context B'} : Contexts ρ c c' →
    Reports X ρ (.answer (.context c.info)) (.answer (.context c'.info))
  /-- The question has the same answer. -/
  | truth (b : Bool) : Reports X ρ (.answer (.truth b)) (.answer (.truth b))
  /-- The comparison is the same. -/
  | comparison (comparison : Comparison) :
    Reports X ρ (.answer (.comparison comparison)) (.answer (.comparison comparison))
  /-- The question was about matching elements. -/
  | inspection {e : Element B} {e' : Element B'} : X.Elements ρ e e' →
    Reports X ρ (.answer (.inspection e.inspection)) (.answer (.inspection e'.inspection))
  /-- The question was for the texts of matching elements. -/
  | text {e : Element B} {e' : Element B'} : X.Elements ρ e e' →
    Reports X ρ (.answer (.text e.toJson)) (.answer (.text e'.toJson))

namespace Sessions

theorem reportContext (h : X.Sessions ρ P s s') (hP : P (.context name)) :
    X.Reports ρ (s.reportContext name) (s'.reportContext name) := by
  rw [Session.reportContext, Session.reportContext]
  obtain ⟨failure, hs, hs'⟩ | ⟨c, c', hs, hs', hc⟩ := (h.context hP).eq_error_or_eq_ok
  · rw [hs, hs']
    exact .failed failure
  · rw [hs, hs']
    exact .context hc

theorem reportElement (h : X.Sessions ρ P s s') (hP : P (.element name))
    (failure? : Option Failure) :
    X.Reports ρ (s.reportElement name failure?) (s'.reportElement name failure?) := by
  rw [Session.reportElement, Session.reportElement]
  obtain ⟨failure, hs, hs'⟩ | ⟨e, e', hs, hs', he⟩ := (h.element hP).eq_error_or_eq_ok
  · rw [hs, hs']
    exact .failed failure
  · rw [hs, hs']
    exact .element failure? he

theorem contains_contexts (h : X.Sessions ρ P s s') (hP : P (.context name)) :
    s.contexts.contains name = s'.contexts.contains name := by
  rw [Table.contains, Table.contains]
  obtain ⟨hs, hs'⟩ | ⟨c, c', hs, hs', -⟩ := eq_none_or_eq_some (h.contexts hP) <;>
  · rw [hs, hs']
    rfl

theorem reportCall (h : X.Sessions ρ P s s') {next : Session B} {next' : Session B'}
    (hnext : X.Sessions ρ P next next') {call : Call} (hP : P call.place)
    (failure? : Option Failure) :
    X.Reports ρ (s.reportCall next call failure?) (s'.reportCall next' call failure?) := by
  cases failure? with
  | none =>
    cases call with
    | createContext name | shareContext name => exact hnext.reportContext hP
    | dropContext name =>
      rw [Session.reportCall, Session.reportCall, h.contains_contexts hP]
      exact .dropped _
    | create name | change name => exact hnext.reportElement hP none
  | some failure =>
    cases call with
    | createContext | shareContext | dropContext | create => exact .failed failure
    | change name =>
      rw [Session.reportCall, Session.reportCall]
      split_ifs
      · exact .failed failure
      · exact hnext.reportElement hP (some failure)

theorem ask (h : X.Sessions ρ P s s') {query : Query} (hP : ∀ place ∈ query.uses, P place) :
    Agree (fun a a' ↦ X.Reports ρ (.answer a) (.answer a')) (s.ask query) (s'.ask query) := by
  cases query with
  | context name => exact (h.context (hP _ List.mem_cons_self)).bind fun _ _ hc ↦ .ok (.info hc)
  | sameContext left right =>
    simp only [Query.uses, List.forall_mem_cons] at hP
    refine (h.context hP.1).bind fun c c' hc ↦ (h.context hP.2.1).bind fun d d' hd ↦ .ok ?_
    rw [hc.sameAs hd]
    exact .truth _
  | belongs operand context =>
    simp only [Query.uses, List.forall_mem_cons] at hP
    refine (h.context hP.2.1).bind fun c c' hc ↦ (h.element hP.1).bind fun e e' he ↦ .ok ?_
    rw [he.context.sameAs hc]
    exact .truth _
  | compare left right =>
    simp only [Query.uses, List.forall_mem_cons] at hP
    refine (h.element hP.1).bind fun a a' ha ↦ (h.element hP.2.1).bind fun b b' hb ↦ .ok ?_
    rw [ha.comparison hb]
    exact .comparison _
  | inspect operand =>
    exact (h.element (hP _ List.mem_cons_self)).bind fun _ _ he ↦ .ok (.inspection he)
  | json operand => exact (h.element (hP _ List.mem_cons_self)).bind fun _ _ he ↦ .ok (.text he)

/-- A request that both sessions answer has matching reports, and leaves matching sessions. -/
theorem respond (h : X.Sessions ρ P s s') {request : Request} (hP : ∀ place ∈ request.uses, P place)
    (hwithin : s.Within X.toScope request) :
    X.Reports ρ (s.respond request).2 (s'.respond request).2 ∧
      X.Sessions ρ P (s.respond request).1 (s'.respond request).1 := by
  cases request with
  | call call =>
    have hplace : P call.place := hP _ call.place_mem_uses
    rw [Session.respond, Session.respond, step_eq_effect, step_eq_effect]
    obtain ⟨failure, hs, hs'⟩ | ⟨next, next', hs, hs', hnext⟩ :=
      (h.effect hP hwithin).eq_error_or_eq_ok
    · rw [hs, hs']
      exact ⟨h.reportCall h hplace (some failure), h⟩
    · rw [hs, hs']
      exact ⟨h.reportCall hnext hplace none, hnext⟩
  | query query =>
    rw [Session.respond, Session.respond]
    obtain ⟨failure, hs, hs'⟩ | ⟨answer, answer', hs, hs', hanswer⟩ :=
      (h.ask hP).eq_error_or_eq_ok
    · rw [hs, hs']
      exact ⟨.failed failure, h⟩
    · rw [hs, hs']
      exact ⟨hanswer, h⟩

end Sessions

end Matching

end BilinearGroups
