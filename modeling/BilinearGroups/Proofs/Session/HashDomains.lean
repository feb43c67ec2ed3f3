import BilinearGroups.Proofs.Session.Effect
import BilinearGroups.Proofs.Session.Validity

/-!
# Hash domains are separated

A tag is a hash domain of any length with an ending that belongs to the group, and nothing marks
where the one stops and the other begins. What separates tags all the same is that no ending is the
end of another one: two equal tags have the same ending, and what is left of them is the same
domain. That holds for every text as a domain, also for one that ends like a tag.

A message is hashed into an element under the tag that the context of the element keeps for its
group: the tag goes to the hash of a source group, and for the other groups to the derivation of the
bytes that become a scalar (`Value.HashedUnder`). Contexts keep the tags of their parameters,
whatever happened since they were created. So over any run the tags of two calls that hash are equal
exactly if the hash domains and the groups are, and applications that choose different hash domains
never hash under a common tag.
-/

namespace BilinearGroups

/-! ## Tags -/

namespace Parameters

variable {p p' : Parameters} {g g' : Group}

/-- The endings are a suffix-free code. -/
theorem eq_of_ending_suffix {c c' : CurveName}
    (h : (ending c g).toList <:+ (ending c' g').toList) : g = g' := by
  revert h
  cases c
  cases c'
  cases g <;> cases g' <;> decide

theorem group_eq_of_tag_eq (h : p.tag g = p'.tag g') : g = g' := by
  rw [tag_eq, tag_eq] at h
  have hending : (ending p.curve g).toList <:+ (p'.hashDomain ++ ending p'.curve g').toList := by
    rw [← h, String.toList_append]
    exact List.suffix_append _ _
  have hending' : (ending p'.curve g').toList <:+ (p'.hashDomain ++ ending p'.curve g').toList := by
    rw [String.toList_append]
    exact List.suffix_append _ _
  -- Of two texts that end the same tag, one ends the other.
  rcases List.suffix_or_suffix_of_suffix hending hending' with hsuffix | hsuffix
  · exact eq_of_ending_suffix hsuffix
  · exact (eq_of_ending_suffix hsuffix).symm

theorem tag_eq_iff : p.tag g = p'.tag g' ↔ p.hashDomain = p'.hashDomain ∧ g = g' := by
  have hcurve : p.curve = p'.curve := by
    cases p.curve
    cases p'.curve
    rfl
  constructor
  · intro h
    obtain rfl := group_eq_of_tag_eq h
    rw [tag_eq, tag_eq, hcurve, String.append_left_inj] at h
    exact ⟨h, rfl⟩
  · rintro ⟨hdomain, rfl⟩
    rw [tag_eq, tag_eq, hcurve, hdomain]

end Parameters

/-! ## The use of a tag -/

variable {B B' : Backend}

namespace Value

/-- The value comes from a message under a tag. The hash of a source group takes the tag with the
message. For a scalar the tag is the context of the key derivation that makes bytes of the message,
and an element of the target group is the generator raised to this scalar. -/
inductive HashedUnder (tag message : Bytes) : Value B → Prop
  /-- A point of the first source group. -/
  | g1 {p : B.G1} : B.g1.hash message tag = .ok p → HashedUnder tag message (.g1 p)
  /-- A point of the second source group. -/
  | g2 {q : B.G2} : B.g2.hash message tag = .ok q → HashedUnder tag message (.g2 q)
  /-- An element of the target group. -/
  | gt : HashedUnder tag message
      (.gt (B.target.scale (B.scalars.reduceWide (Blake3.derive tag message)) B.target.generator))
  /-- A scalar. -/
  | zr : HashedUnder tag message (.zr (B.scalars.reduceWide (Blake3.derive tag message)))

variable {tag message : Bytes} {g : Group} {v : Value B} {reason : BackendError}

theorem hash_eq_ok_iff :
    hash message tag g = .ok v ↔ v.group = g ∧ v.HashedUnder tag message := by
  constructor
  · intro h
    refine ⟨group_of_hash h, ?_⟩
    cases g with
    | g1 =>
      obtain ⟨p, hp, rfl⟩ := exists_of_map_eq_ok h
      exact .g1 hp
    | g2 =>
      obtain ⟨q, hq, rfl⟩ := exists_of_map_eq_ok h
      exact .g2 hq
    | gt =>
      obtain rfl := Except.ok.inj h
      exact .gt
    | zr =>
      obtain rfl := Except.ok.inj h
      exact .zr
  · rintro ⟨rfl, hp | hq | _ | _⟩
    · exact congrArg (Except.map Value.g1) hp
    · exact congrArg (Except.map Value.g2) hq
    · rfl
    · rfl

/-- Only the hash of a source group can be refused. -/
theorem hash_eq_error_iff : hash (B := B) message tag g = .error reason ↔
    (g = .g1 ∧ B.g1.hash message tag = .error reason) ∨
      (g = .g2 ∧ B.g2.hash message tag = .error reason) := by
  cases g with
  | g1 => cases h : B.g1.hash message tag <;> simp [hash, h, Except.map]
  | g2 => cases h : B.g2.hash message tag <;> simp [hash, h, Except.map]
  | gt | zr => simp [hash]

end Value

/-! ## Calls that hash -/

/-- The tag under which messages are hashed into the element. -/
def Element.hashTag (e : Element B) : Bytes := Bytes.ofText (e.context.tag e.group)

namespace Session

variable {calls calls' : List Call} {i j : ℕ} {name name' : String} {message message' : Bytes}
variable {e : Element B} {e' : Element B'}

/-- The call at a position of a run hashes a message into an element, which is held under a name
before the call. -/
structure HashesAt (calls : List Call) (i : ℕ) (name : String) (message : Bytes) (e : Element B) :
    Prop where
  call : calls[i]? = some (.change name (.hash message))
  held : ((empty B).run (calls.take i)).element name = .ok e

namespace HashesAt

/-- The call replaces the value by the hash under the tag of the element, or is refused. -/
theorem step_eq (h : HashesAt calls i name message e) :
    ((empty B).run (calls.take i)).step (.change name (.hash message)) =
      match Value.hash message e.hashTag e.group with
      | .ok v => (((empty B).run (calls.take i)).withChanged name (e.withValue v), none)
      | .error reason => ((empty B).run (calls.take i), some (.refused (.backend reason))) := by
  have heffect : ((empty B).run (calls.take i)).effect (.change name (.hash message)) = do
      return ((empty B).run (calls.take i)).withChanged name
        (← accept ((Element.setFromHash message).result e)) := by
    rw [effect, h.held]
    rfl
  rw [step_eq_effect, heffect, Element.setFromHash_result, Element.hashTag]
  cases Value.hash message (Bytes.ofText (e.context.tag e.group)) e.group <;> rfl

theorem isValid (h : HashesAt calls i name message e) : e.context.IsValid :=
  isValid_of_handle?_run (calls.take i) (.element name) _ (handle?_of_element h.held)

theorem hashTag_eq_iff (h : HashesAt calls i name message e)
    (h' : HashesAt calls' j name' message' e') : e.hashTag = e'.hashTag ↔
      e.context.parameters.hashDomain = e'.context.parameters.hashDomain ∧ e.group = e'.group := by
  rw [Element.hashTag, Element.hashTag, Bytes.ofText_injective.eq_iff, h.isValid.tag_eq,
    h'.isValid.tag_eq, Parameters.tag_eq_iff]

end HashesAt

/-- Tags are equal only for equal hash domains and groups, whatever texts the domains are, so that
applications with different hash domains share no tag. A call that hashes a message into an element
replaces the value by the hash under the tag of the element, unless there is none: this tag is what
the hash of the source group or the derivation of the scalar gets with the message. And the tags of
two calls, of one run or of different ones, are equal exactly if the hash domains of the contexts
and the groups of the elements are. -/
theorem hash_domains_separated :
    (∀ (p p' : Parameters) (g g' : Group),
      p.tag g = p'.tag g' ↔ p.hashDomain = p'.hashDomain ∧ g = g') ∧
    (∀ p p' : Parameters, p.hashDomain ≠ p'.hashDomain → ∀ g g', p.tag g ≠ p'.tag g') ∧
    (∀ (B : Backend) (calls : List Call) (i : ℕ) (name : String) (message : Bytes) (e : Element B),
      HashesAt calls i name message e →
        ((empty B).run (calls.take i)).step (.change name (.hash message)) =
          match Value.hash message e.hashTag e.group with
          | .ok v => (((empty B).run (calls.take i)).withChanged name (e.withValue v), none)
          | .error reason => ((empty B).run (calls.take i), some (.refused (.backend reason)))) ∧
    (∀ (B : Backend) (message tag : Bytes) (g : Group),
      (∀ v : Value B, Value.hash message tag g = .ok v ↔
        v.group = g ∧ v.HashedUnder tag message) ∧
      ∀ reason, Value.hash (B := B) message tag g = .error reason ↔
        (g = .g1 ∧ B.g1.hash message tag = .error reason) ∨
          (g = .g2 ∧ B.g2.hash message tag = .error reason)) ∧
    ∀ (B B' : Backend) (calls calls' : List Call) (i j : ℕ) (name name' : String)
      (message message' : Bytes) (e : Element B) (e' : Element B'),
      HashesAt calls i name message e → HashesAt calls' j name' message' e' →
        (e.hashTag = e'.hashTag ↔
          e.context.parameters.hashDomain = e'.context.parameters.hashDomain ∧
            e.group = e'.group) := by
  refine ⟨fun _ _ _ _ ↦ Parameters.tag_eq_iff, ?_, ?_, ?_, ?_⟩
  · intro p p' hdomain g g' h
    exact hdomain (Parameters.tag_eq_iff.mp h).1
  · intro B calls i name message e h
    exact h.step_eq
  · intro B message tag g
    exact ⟨fun _ ↦ Value.hash_eq_ok_iff, fun _ ↦ Value.hash_eq_error_iff⟩
  · intro B B' calls calls' i j name name' message message' e e' h h'
    exact h.hashTag_eq_iff h'

/-- Three contexts, two of them with one hash domain and the third with a tag of theirs as its hash
domain, and messages that are hashed into an element of each. -/
def nestedCalls : List Call :=
  [.createContext "c" (.domain "APP"), .createContext "d" (.domain "APP"),
    .createContext "n" (.domain "APP_BLS12381Zr_BLAKE3_"), .create "x" (.fresh "c" .zr),
    .create "y" (.fresh "d" .zr), .create "z" (.fresh "n" .zr), .change "x" (.hash [1]),
    .change "y" (.hash [2]), .change "z" (.hash [1])]

theorem hash_domains_separated_nested :
    ∃ x y z : Element exponentModel, HashesAt nestedCalls 6 "x" [1] x ∧
      HashesAt nestedCalls 7 "y" [2] y ∧ HashesAt nestedCalls 8 "z" [1] z ∧
      x.hashTag = y.hashTag ∧ x.hashTag ≠ z.hashTag := by
  obtain ⟨-, -, -, -, htags⟩ := hash_domains_separated
  have hx : HashesAt nestedCalls 6 "x" [1] (_ : Element exponentModel) := ⟨rfl, rfl⟩
  have hy : HashesAt nestedCalls 7 "y" [2] (_ : Element exponentModel) := ⟨rfl, rfl⟩
  have hz : HashesAt nestedCalls 8 "z" [1] (_ : Element exponentModel) := ⟨rfl, rfl⟩
  refine ⟨_, _, _, hx, hy, hz, (htags _ _ _ _ _ _ _ _ _ _ _ _ hx hy).mpr ⟨rfl, rfl⟩, ?_⟩
  intro h
  have hdomain : "APP" = "APP_BLS12381Zr_BLAKE3_" :=
    ((htags _ _ _ _ _ _ _ _ _ _ _ _ hx hz).mp h).1
  exact absurd hdomain (by decide)

end Session

end BilinearGroups
