import Mathlib.Data.List.Induction
import Mathlib.Order.Lattice.Nat
import BilinearGroups.Proofs.Session.Frame

/-!
# Where handles of contexts come from

A handle of a context is held under a name, or inside an element under a name. Every call says for
each place where the handle comes from that is there afterwards: it is a clone of a handle that was
there before, it was just created, or there is none (`Call.descent`). So whatever a session holds
can be followed back to the calls that created its contexts.

To follow it back, places are labelled. A call that creates a context chooses a label for it, and
clones carry the label on. If no label is chosen that is still in use, then equal labels tell
exactly which handles are of one context (`Labelling.IsFresh.sameAs_iff`), since the number of a
creation is such a label itself. Two choices matter. Labelled by the position of the call, a handle
knows the creation that it descends from (`origin`). And labels may be used again when all handles
that carry them are gone, as are the addresses where contexts are kept (`leastFree`): among the
handles that are held, the same address means the same context.
-/

namespace BilinearGroups.Session

variable {B : Backend} {s s' : Session B} {call : Call} {name : String} {e : Element B}

/-! ## Places -/

/-- Where a handle of a context is held. -/
inductive Place where
  /-- Under a name of its own. -/
  | context (name : String)
  /-- Inside the element under a name. -/
  | element (name : String)
deriving DecidableEq

/-- The handle at a place. -/
def handle? (s : Session B) : Place → Option (Context B)
  | .context name => s.contexts.get? name
  | .element name => (s.elements.get? name).map Element.context

theorem handle?_of_context {c : Context B} (h : s.context name = .ok c) :
    s.handle? (.context name) = some c := by
  unfold context at h
  split at h
  · next hget =>
    cases h
    exact hget
  · cases h

theorem handle?_of_element (h : s.element name = .ok e) :
    s.handle? (.element name) = some e.context :=
  congrArg (Option.map Element.context) (element_eq_ok_iff.mp h)

/-! ## Descent -/

/-- Where the handle at a place comes from in a call that succeeds. -/
inductive Descent where
  /-- It is a clone of the handle at a place before the call, perhaps the same. -/
  | cloned (origin : Place)
  /-- It was created by the call. -/
  | created
  /-- There is none. -/
  | dropped

/-- The place of the handle that a new element clones. -/
def Creation.origin : Creation → Place
  | fresh context _ | ofBytes context _ _ | ofCompressedBytes context _ _ | ofJson context _ _
  | pairing context _ _ | pairingProduct context _ _ => .context context
  | freshLike operand | copy operand => .element operand

/-- Where the handle at a place comes from in a call. -/
def Call.descent : Call → Place → Descent
  | .createContext name _, place =>
    if place = .context name then .created else .cloned place
  | .shareContext name source, place =>
    if place = .context name then .cloned (.context source) else .cloned place
  | .dropContext name, place =>
    if place = .context name then .dropped else .cloned place
  | .create name creation, place =>
    if place = .element name then .cloned creation.origin else .cloned place
  | .change _ _, place => .cloned place

/-- The handle inside an element stays, unless a new element takes the name. -/
theorem Call.descent_element (h : ∀ creation, call ≠ .create name creation) :
    call.descent (.element name) = .cloned (.element name) := by
  cases call with
  | createContext | shareContext | dropContext =>
    rw [descent, if_neg]
    exact nofun
  | create other creation =>
    rw [descent, if_neg]
    rintro ⟨⟩
    exact h creation rfl
  | change => rfl

/-- A new element has the context of the handle that it clones. -/
theorem Creation.handle?_origin {creation : Creation} (h : creation.produce s = .ok e) :
    s.handle? creation.origin = some e.context := by
  cases creation with
  | fresh context g =>
    obtain ⟨c, hc, h⟩ := exists_of_bind_eq_ok h
    cases h
    exact handle?_of_context hc
  | freshLike operand =>
    obtain ⟨o, ho, h⟩ := exists_of_bind_eq_ok h
    cases h
    have horigin := handle?_of_element ho
    exact horigin
  | copy operand => exact handle?_of_element h
  | ofBytes context g bytes =>
    obtain ⟨c, hc, h⟩ := exists_of_bind_eq_ok h
    obtain ⟨rfl, -⟩ := Element.ofBytes_eq_ok_iff.mp (accept_eq_ok_iff.mp h)
    exact handle?_of_context hc
  | ofCompressedBytes context g bytes =>
    obtain ⟨c, hc, h⟩ := exists_of_bind_eq_ok h
    obtain ⟨v, -, rfl⟩ :=
      (Element.setFromCompressedBytes_replaces bytes).of_result (accept_eq_ok_iff.mp h)
    exact handle?_of_context hc
  | ofJson context accepted? text =>
    obtain ⟨c, hc, h⟩ := exists_of_bind_eq_ok h
    obtain ⟨⟨e, rest⟩, hread, h⟩ := exists_of_bind_eq_ok h
    cases h
    obtain ⟨g, bs, hbytes⟩ := Element.ofBytes_of_readJson (readable_eq_ok_iff.mp hread)
    obtain ⟨rfl, -⟩ := Element.ofBytes_eq_ok_iff.mp hbytes
    exact handle?_of_context hc
  | pairing context left right =>
    obtain ⟨c, hc, h⟩ := exists_of_bind_eq_ok h
    obtain ⟨a, -, h⟩ := exists_of_bind_eq_ok h
    obtain ⟨b, -, h⟩ := exists_of_bind_eq_ok h
    obtain ⟨pq, -, h⟩ := exists_of_bind_eq_ok (accept_eq_ok_iff.mp h)
    cases h
    exact handle?_of_context hc
  | pairingProduct context lefts rights =>
    obtain ⟨c, hc, h⟩ := exists_of_bind_eq_ok h
    obtain ⟨as, -, h⟩ := exists_of_bind_eq_ok h
    obtain ⟨bs, -, h⟩ := exists_of_bind_eq_ok h
    obtain ⟨-, points, t, -, -, rfl⟩ :=
      Context.exists_points_of_pairingProduct (accept_eq_ok_iff.mp h)
    exact handle?_of_context hc

theorem Description.creation_of_build {description : Description} {number : ℕ} {c : Context B}
    (h : description.build B number = .ok c) : c.creation = number := by
  have hcreate : ∀ {p}, Context.create B number p = .ok c → c.creation = number := by
    intro p h
    unfold Context.create at h
    split at h
    · cases h
    · cases h
      rfl
  cases description with
  | standard => exact hcreate (accept_eq_ok_iff.mp h)
  | domain hashDomain => exact hcreate (accept_eq_ok_iff.mp h)
  | json source =>
    obtain ⟨p, -, h⟩ := exists_of_bind_eq_ok h
    exact hcreate (accept_eq_ok_iff.mp h)
  | text source =>
    have h := accept_eq_ok_iff.mp h
    unfold Context.ofDescription at h
    split at h
    · cases h
    · exact hcreate h

/-! ### Handles after an effect -/

theorem handle?_insertContext (s : Session B) (name : String) (c : Context B) (created : ℕ)
    (place : Place) :
    ({ s with created := created, contexts := s.contexts.insert name c } : Session B).handle? place
      = if place = .context name then some c else s.handle? place := by
  cases place with
  | context other => simp [handle?, Table.get?_insert]
  | element other => rw [if_neg nofun]; rfl

theorem handle?_eraseContext (s : Session B) (name : String) (place : Place) :
    ({ s with contexts := s.contexts.erase name } : Session B).handle? place
      = if place = .context name then none else s.handle? place := by
  cases place with
  | context other => simp [handle?, Table.get?_erase]
  | element other => rw [if_neg nofun]; rfl

theorem handle?_withElement (s : Session B) (name : String) (e : Element B) (place : Place) :
    (s.withElement name e).handle? place
      = if place = .element name then some e.context else s.handle? place := by
  cases place with
  | context other => rw [if_neg nofun]; rfl
  | element other =>
    by_cases hname : other = name <;> simp [handle?, withElement, Table.get?_insert, hname]

/-- A new value stands beside the context that was there. -/
theorem handle?_withChanged {v : Value B} (h : s.element name = .ok e) (place : Place) :
    (s.withChanged name (e.withValue v)).handle? place = s.handle? place := by
  cases place with
  | context other => rfl
  | element other =>
    by_cases hname : other = name
    · simp [handle?, withChanged, Table.get?_replace, hname, element_eq_ok_iff.mp h,
        Element.withValue]
    · simp [handle?, withChanged, Table.get?_replace, hname]

/-- The handle at a place after a call comes from where the call says. -/
inductive Descends (s s' : Session B) (call : Call) (place : Place) : Prop
  /-- The handle was cloned. -/
  | cloned {origin : Place} : call.descent place = .cloned origin →
    s'.handle? place = s.handle? origin → Descends s s' call place
  /-- The handle is that of the context which the call created. -/
  | created {description : Description} {c : Context B} :
    call.descent place = .created → (∃ name, call = .createContext name description) →
    description.build B s.created = .ok c → s'.handle? place = some c →
    s'.created = s.created + 1 → Descends s s' call place
  /-- The handle was dropped. -/
  | dropped : call.descent place = .dropped → s'.handle? place = none → Descends s s' call place

theorem Performed.descends (h : s.Performed call s') (place : Place) :
    Descends s s' call place := by
  cases h with
  | @createContext name description c hc =>
    have hhandle := s.handle?_insertContext name c (s.created + 1) place
    by_cases hplace : place = .context name
    · rw [if_pos hplace] at hhandle
      exact .created (if_pos hplace) ⟨name, rfl⟩ hc hhandle rfl
    · rw [if_neg hplace] at hhandle
      exact .cloned (if_neg hplace) hhandle
  | @shareContext name source c hc =>
    have hhandle := s.handle?_insertContext name c s.created place
    by_cases hplace : place = .context name
    · rw [if_pos hplace, ← handle?_of_context hc] at hhandle
      exact .cloned (if_pos hplace) hhandle
    · rw [if_neg hplace] at hhandle
      exact .cloned (if_neg hplace) hhandle
  | @dropContext name =>
    have hhandle := s.handle?_eraseContext name place
    by_cases hplace : place = .context name
    · rw [if_pos hplace] at hhandle
      exact .dropped (if_pos hplace) hhandle
    · rw [if_neg hplace] at hhandle
      exact .cloned (if_neg hplace) hhandle
  | @create name creation e he =>
    have hhandle := s.handle?_withElement name e place
    by_cases hplace : place = .element name
    · rw [if_pos hplace, ← Creation.handle?_origin he] at hhandle
      exact .cloned (if_pos hplace) hhandle
    · rw [if_neg hplace] at hhandle
      exact .cloned (if_neg hplace) hhandle
  | @change name change u e v he => exact .cloned rfl (handle?_withChanged he place)

theorem Performed.created_le (h : s.Performed call s') : s.created ≤ s'.created := by
  cases h with
  | createContext => exact Nat.le_succ _
  | shareContext | dropContext | create | change => exact Nat.le_refl _

/-! ## Labels -/

variable {α β : Type}

/-- The label that a descent leads to, where `a` labels the context that a call creates. -/
def Descent.label (labels : Place → Option α) (a : α) : Descent → Option α
  | cloned origin => labels origin
  | created => some a
  | dropped => none

/-- The labels after a call that succeeds. -/
def Call.relabel (call : Call) (labels : Place → Option α) (a : α) (place : Place) : Option α :=
  (call.descent place).label labels a

/-- Two labellings tell the same places apart, and leave the same places without a label. -/
structure SameClasses (l : Place → Option α) (m : Place → Option β) : Prop where
  none_iff (p : Place) : l p = none ↔ m p = none
  eq_iff (p q : Place) : l p = l q ↔ m p = m q

/-- Labels that are new on both sides keep places apart on both sides. -/
theorem SameClasses.relabel {l : Place → Option α} {m : Place → Option β} (h : SameClasses l m)
    {a : α} {b : β} (ha : ∀ p, l p ≠ some a) (hb : ∀ p, m p ≠ some b) (call : Call) :
    SameClasses (call.relabel l a) (call.relabel m b) := by
  constructor
  · intro p
    rw [Call.relabel, Call.relabel]
    rcases call.descent p with origin | _ | _
    · exact h.none_iff origin
    · simp [Descent.label]
    · simp [Descent.label]
  · intro p q
    rw [Call.relabel, Call.relabel, Call.relabel, Call.relabel]
    rcases call.descent p with origin | _ | _ <;> rcases call.descent q with origin' | _ | _ <;>
      simp only [Descent.label, reduceCtorEq]
    · exact h.eq_iff origin origin'
    · exact iff_of_false (ha origin) (hb origin)
    · exact h.none_iff origin
    · exact iff_of_false (ha origin').symm (hb origin').symm
    · rw [eq_comm, h.none_iff, eq_comm]

/-- The numbers of the creations of the contexts that are held. -/
def numbers (s : Session B) (place : Place) : Option ℕ := (s.handle? place).map Context.creation

/-- The number of a creation is the label of a context. -/
theorem Performed.numbers_eq (h : s.Performed call s') :
    s'.numbers = call.relabel s.numbers s.created := by
  funext place
  rw [Call.relabel, numbers]
  rcases h.descends place with ⟨hdescent, hhandle⟩ | ⟨hdescent, -, hbuild, hhandle, -⟩ |
    ⟨hdescent, hhandle⟩
  · rw [hdescent, hhandle]
    rfl
  · rw [hdescent, hhandle, Option.map_some, Description.creation_of_build hbuild]
    rfl
  · rw [hdescent, hhandle]
    rfl

/-- Contexts are numbered below the count of contexts, so the next number is new. -/
theorem numbers_lt_run (calls : List Call) (place : Place) (n : ℕ)
    (h : ((empty B).run calls).numbers place = some n) : n < ((empty B).run calls).created := by
  revert place n
  refine run_invariant (I := fun s ↦ ∀ place n, s.numbers place = some n → n < s.created) ?_ ?_
  · rintro (name | name) n h <;> cases h
  · intro call _ s s' hs hperformed place n h
    rcases hperformed.descends place with ⟨-, hhandle⟩ | ⟨-, -, hbuild, hhandle, hcreated⟩ |
      ⟨-, hhandle⟩
    · rw [numbers, hhandle] at h
      exact Nat.lt_of_lt_of_le (hs _ n h) hperformed.created_le
    · rw [numbers, hhandle, Option.map_some, Description.creation_of_build hbuild] at h
      rw [hcreated, ← Option.some.inj h]
      exact Nat.lt_succ_self _
    · rw [numbers, hhandle] at h
      cases h

/-! ## Labelled runs -/

/-- A choice of labels: the label for a new context, by the number of calls before and the labels of
all places. -/
abbrev Labelling (α : Type) := ℕ → (Place → Option α) → α

/-- The labels after calls that continue from a session with labels. -/
def labelsFrom (L : Labelling α) (s : Session B) (count : ℕ) (labels : Place → Option α) :
    List Call → Place → Option α
  | [] => labels
  | call :: calls =>
    match (s.step call).2 with
    | none => labelsFrom L (s.step call).1 (count + 1) (call.relabel labels (L count labels)) calls
    | some _ => labelsFrom L (s.step call).1 (count + 1) labels calls

/-- The labels after calls from the empty session. -/
def labels (B : Backend) (L : Labelling α) (calls : List Call) : Place → Option α :=
  labelsFrom L (empty B) 0 (fun _ ↦ none) calls

theorem run_concat (s : Session B) (calls : List Call) (call : Call) :
    s.run (calls ++ [call]) = ((s.run calls).step call).1 := by
  rw [run, List.foldl_append]
  rfl

theorem labelsFrom_concat (L : Labelling α) (s : Session B) (count : ℕ) (l : Place → Option α)
    (calls : List Call) (call : Call) : labelsFrom L s count l (calls ++ [call]) =
      match ((s.run calls).step call).2 with
      | none => call.relabel (labelsFrom L s count l calls)
          (L (count + calls.length) (labelsFrom L s count l calls))
      | some _ => labelsFrom L s count l calls := by
  induction calls generalizing s count l with
  | nil => rfl
  | cons first calls ih =>
    rw [List.cons_append, labelsFrom, run_cons, List.length_cons, labelsFrom,
      Nat.add_comm calls.length, ← Nat.add_assoc]
    split
    · exact ih ..
    · exact ih ..

/-- What holds at the start, and is preserved by calls that fail and by calls that succeed, holds of
a labelled run. -/
theorem labels_induction {L : Labelling α}
    {I : List Call → Session B → (Place → Option α) → Prop} (start : I [] (empty B) fun _ ↦ none)
    (fails : ∀ calls call s l, I calls s l → I (calls ++ [call]) s l)
    (performs : ∀ calls call s', I calls ((empty B).run calls) (labels B L calls) →
      ((empty B).run calls).Performed call s' →
        I (calls ++ [call]) s' (call.relabel (labels B L calls)
          (L calls.length (labels B L calls))))
    (calls : List Call) : I calls ((empty B).run calls) (labels B L calls) := by
  induction calls using List.reverseRecOn with
  | nil => exact start
  | append_singleton calls call ih =>
    rw [run_concat, labels, labelsFrom_concat, Nat.zero_add]
    obtain ⟨failure, hstep⟩ | ⟨s', hstep, hperformed⟩ := ((empty B).run calls).step_cases call
    · rw [hstep]
      exact fails calls call _ _ ih
    · rw [hstep]
      exact performs calls call s' ih hperformed

/-- No label is chosen that is still in use. -/
def Labelling.IsFresh (B : Backend) (L : Labelling α) : Prop :=
  ∀ calls place, labels B L calls place ≠ some (L calls.length (labels B L calls))

/-- Labels that are chosen afresh tell contexts apart as their numbers do. -/
theorem Labelling.IsFresh.sameClasses {L : Labelling α} (hL : L.IsFresh B) (calls : List Call) :
    SameClasses ((empty B).run calls).numbers (labels B L calls) := by
  refine labels_induction (I := fun _ s l ↦ SameClasses s.numbers l) ?_ ?_ ?_ calls
  · have hnone : (empty B).numbers = fun _ ↦ none := by
      funext place
      cases place <;> rfl
    rw [hnone]
    exact ⟨fun _ ↦ iff_of_true rfl rfl, fun _ _ ↦ iff_of_true rfl rfl⟩
  · intro _ _ _ _ h
    exact h
  · intro calls call s' h hperformed
    rw [hperformed.numbers_eq]
    refine h.relabel ?_ (hL calls) call
    intro place hplace
    exact absurd (numbers_lt_run calls place _ hplace) (Nat.lt_irrefl _)

/-- Two handles are of one context exactly if they carry one label. -/
theorem Labelling.IsFresh.sameAs_iff {L : Labelling α} (hL : L.IsFresh B) {calls : List Call}
    {p q : Place} {c d : Context B} (hp : ((empty B).run calls).handle? p = some c)
    (hq : ((empty B).run calls).handle? q = some d) :
    c.sameAs d = true ↔ labels B L calls p = labels B L calls q := by
  rw [← (hL.sameClasses calls).eq_iff, numbers, numbers, hp, hq, Option.map_some, Option.map_some,
    Option.some.injEq, Context.sameAs, beq_iff_eq]

/-! ## Origins -/

/-- The position of the call that created the context of the handle at a place. -/
def origin (B : Backend) (calls : List Call) : Place → Option ℕ :=
  labels B (fun count _ ↦ count) calls

/-- The call at a position succeeded in creating the context. -/
def CreatedAt (calls : List Call) (i : ℕ) (c : Context B) : Prop :=
  ∃ name description, calls[i]? = some (.createContext name description) ∧
    description.build B ((empty B).run (calls.take i)).created = .ok c

/-- A longer list of calls says the same of the positions that a shorter one has. -/
theorem CreatedAt.concat {calls : List Call} {i : ℕ} {c : Context B} (h : CreatedAt calls i c)
    (call : Call) : CreatedAt (calls ++ [call]) i c := by
  obtain ⟨name, description, hi, hbuild⟩ := h
  obtain ⟨hlt, -⟩ := List.getElem?_eq_some_iff.mp hi
  refine ⟨name, description, ?_, ?_⟩
  · rw [List.getElem?_append_left hlt, hi]
  · rwa [List.take_append_of_le_length (Nat.le_of_lt hlt)]

/-- A handle that is held descends from a call that created this very context. -/
theorem exists_origin {calls : List Call} {place : Place} {c : Context B}
    (h : ((empty B).run calls).handle? place = some c) :
    ∃ i, origin B calls place = some i ∧ CreatedAt calls i c := by
  revert place c
  refine labels_induction (L := fun count _ ↦ count)
    (I := fun calls s l ↦ ∀ {place c}, s.handle? place = some c →
      ∃ i, l place = some i ∧ CreatedAt calls i c) ?_ ?_ ?_ calls
  · rintro (name | name) c h <;> cases h
  · intro calls call s l hs place c h
    obtain ⟨i, hi, hcreated⟩ := hs h
    exact ⟨i, hi, hcreated.concat call⟩
  · intro calls call s' hs hperformed place c h
    rw [Call.relabel]
    rcases hperformed.descends place with ⟨hdescent, hhandle⟩ |
      @⟨description, c', hdescent, ⟨name, hcall⟩, hbuild, hhandle, -⟩ | ⟨-, hhandle⟩
    · obtain ⟨i, hi, hcreated⟩ := hs (hhandle.symm.trans h)
      rw [hdescent]
      exact ⟨i, hi, hcreated.concat call⟩
    · obtain rfl := Option.some.inj (hhandle.symm.trans h)
      rw [hdescent]
      refine ⟨calls.length, rfl, name, description, ?_, ?_⟩
      · rw [List.getElem?_concat_length, hcall]
      · rw [List.take_left]
        exact hbuild
    · rw [hhandle] at h
      cases h

/-- Numbers are new if each is at most the number of calls before and not in use. -/
theorem Labelling.isFresh_of_le {L : Labelling ℕ}
    (h : ∀ count labels, (∀ place a, labels place = some a → a < count) →
      L count labels ≤ count ∧ ∀ place, labels place ≠ some (L count labels)) : L.IsFresh B := by
  have hlt : ∀ calls place a, labels B L calls place = some a → a < calls.length := by
    intro calls
    refine labels_induction (I := fun calls _ l ↦ ∀ place a, l place = some a → a < calls.length)
      ?_ ?_ ?_ calls
    · intro place a ha
      cases ha
    · intro calls call _ l hl place a ha
      rw [List.length_append]
      exact Nat.lt_add_right _ (hl place a ha)
    · intro calls call s' hl _ place a ha
      rw [List.length_append]
      rw [Call.relabel] at ha
      rcases hdescent : call.descent place with o | _ | _ <;> rw [hdescent] at ha
      · exact Nat.lt_add_right _ (hl o a ha)
      · obtain rfl := Option.some.inj ha
        exact Nat.lt_succ_of_le (h _ _ hl).1
      · cases ha
  intro calls
  exact (h _ _ (hlt calls)).2

/-- Positions are new when they come up. -/
theorem origin_isFresh : Labelling.IsFresh B (fun count _ ↦ count) := by
  refine Labelling.isFresh_of_le fun count labels hlt ↦ ⟨Nat.le_refl _, ?_⟩
  intro place hplace
  exact absurd (hlt place count hplace) (Nat.lt_irrefl _)

/-- The least address where no context is kept. -/
noncomputable def leastFree : Labelling ℕ := fun _ labels ↦
  sInf {a | ∀ place, labels place ≠ some a}

/-- An address may be used again after all handles of the context at it are gone. -/
theorem leastFree_isFresh : leastFree.IsFresh B := by
  refine Labelling.isFresh_of_le fun count labels hlt ↦ ?_
  have hcount : count ∈ {a | ∀ place, labels place ≠ some a} := by
    intro place hplace
    exact absurd (hlt place count hplace) (Nat.lt_irrefl _)
  exact ⟨Nat.sInf_le hcount, Nat.sInf_mem ⟨count, hcount⟩⟩

/-- Two handles are of one context exactly if they descend from one creation. -/
theorem sameAs_iff_origin {calls : List Call} {p q : Place} {c d : Context B}
    (hp : ((empty B).run calls).handle? p = some c)
    (hq : ((empty B).run calls).handle? q = some d) :
    c.sameAs d = true ↔ origin B calls p = origin B calls q :=
  origin_isFresh.sameAs_iff hp hq

/-- A place that later calls leave alone keeps its label. -/
theorem labels_append {L : Labelling α} {place : Place} (calls : List Call) {later : List Call}
    (h : ∀ call ∈ later, call.descent place = .cloned place) :
    labels B L (calls ++ later) place = labels B L calls place := by
  induction later using List.reverseRecOn with
  | nil => rw [List.append_nil]
  | append_singleton later call ih =>
    have hlater := ih fun call hcall ↦ h call (List.mem_append_left _ hcall)
    rw [← List.append_assoc, labels, labelsFrom_concat]
    split
    · rw [Call.relabel, h call (by simp)]
      exact hlater
    · exact hlater

end BilinearGroups.Session
