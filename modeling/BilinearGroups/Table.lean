/-!
# Tables of named values

A table holds at most one visible value under each name. It is a list of pairs in which the pair
nearest the front counts: inserting puts a pair in front, replacing changes the pair that counts,
and erasing removes every pair of the name. What a table says is therefore read off `get?`, and the
lemmas below say what each operation does to it.
-/

namespace BilinearGroups

/-- Values under names. -/
structure Table (α : Type) where
  /-- The pairs of a name and a value, of which the first of a name counts. -/
  entries : List (String × α)

namespace Table

variable {α : Type}

/-- The table without values. -/
def empty : Table α := ⟨[]⟩

/-- The value under a name. -/
def get? (t : Table α) (name : String) : Option α := t.entries.lookup name

/-- The table with a value under a name, in place of any other value there. -/
def insert (t : Table α) (name : String) (a : α) : Table α := ⟨(name, a) :: t.entries⟩

/-- The table with another value in the place of the one under a name. Where there is none, the
table stays as it is. -/
def replace (t : Table α) (name : String) (a : α) : Table α := ⟨go t.entries⟩
where
  /-- Replaces the value of the first pair of the name. -/
  go : List (String × α) → List (String × α)
    | [] => []
    | (other, b) :: entries =>
      if other = name then (other, a) :: entries else (other, b) :: go entries

/-- The table without a value under a name. -/
def erase (t : Table α) (name : String) : Table α := ⟨t.entries.filter (·.1 ≠ name)⟩

/-- There is a value under a name. -/
def contains (t : Table α) (name : String) : Bool := (t.get? name).isSome

@[simp] theorem get?_empty (name : String) : (empty : Table α).get? name = none := rfl

theorem get?_insert (t : Table α) (name other : String) (a : α) :
    (t.insert name a).get? other = if other = name then some a else t.get? other := by
  unfold get? insert
  rw [List.lookup_cons]
  split <;> simp_all

@[simp] theorem get?_insert_self (t : Table α) (name : String) (a : α) :
    (t.insert name a).get? name = some a := by simp [get?_insert]

theorem get?_insert_of_ne (t : Table α) {name other : String} (a : α) (h : other ≠ name) :
    (t.insert name a).get? other = t.get? other := by simp [get?_insert, h]

theorem get?_replace (t : Table α) (name other : String) (a : α) :
    (t.replace name a).get? other =
      if other = name then (t.get? name).map fun _ ↦ a else t.get? other := by
  obtain ⟨entries⟩ := t
  unfold get? replace
  induction entries with
  | nil => simp [replace.go]
  | cons entry entries ih =>
    obtain ⟨first, b⟩ := entry
    by_cases hf : first = name <;> by_cases ho : other = first <;>
      grind [replace.go]

/-- Replacing a value by itself changes nothing. -/
theorem replace_self {t : Table α} {name : String} {a : α} (h : t.get? name = some a) :
    t.replace name a = t := by
  obtain ⟨entries⟩ := t
  unfold get? at h
  unfold replace
  congr 1
  induction entries with
  | nil => rfl
  | cons entry entries ih =>
    obtain ⟨first, b⟩ := entry
    by_cases hf : first = name <;> grind [replace.go]

theorem get?_erase (t : Table α) (name other : String) :
    (t.erase name).get? other = if other = name then none else t.get? other := by
  obtain ⟨entries⟩ := t
  unfold get? erase
  induction entries with
  | nil => simp
  | cons entry entries ih =>
    obtain ⟨first, a⟩ := entry
    by_cases hf : first = name <;> by_cases ho : other = first <;>
      grind

end Table

end BilinearGroups
