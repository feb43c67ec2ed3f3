/-!
# The groups of a pairing

A pairing joins two source groups into a target group, and the three have the scalar field as their
exponents. The four are handled alike, so the library names them by one tag.
-/

namespace BilinearGroups

/-- The four groups of a pairing. -/
inductive Group where
  /-- The first source group. -/
  | g1
  /-- The second source group. -/
  | g2
  /-- The target group. -/
  | gt
  /-- The scalar field. -/
  | zr
deriving DecidableEq, Repr

namespace Group

/-- The groups in their order of listing. -/
def all : List Group := [g1, g2, gt, zr]

/-- The written name of a group. -/
def name : Group → String
  | g1 => "G1"
  | g2 => "G2"
  | gt => "GT"
  | zr => "Zr"

/-- The group with a written name. -/
def ofName? (s : String) : Option Group := all.find? (·.name == s)

/-- The tag of a group in diagnostic output. -/
def debugName : Group → String
  | g1 => "G1"
  | g2 => "G2"
  | gt => "Gt"
  | zr => "Zr"

/-- Points have a compressed encoding; target group elements and scalars have none. -/
def supportsCompression : Group → Bool
  | g1 | g2 => true
  | gt | zr => false

end Group

/-- One value for each group. -/
structure PerGroup (α : Type) where
  /-- The value for the first source group. -/
  g1 : α
  /-- The value for the second source group. -/
  g2 : α
  /-- The value for the target group. -/
  gt : α
  /-- The value for the scalar field. -/
  zr : α
deriving DecidableEq, Repr

namespace PerGroup

variable {α : Type}

/-- The table of a function on the groups. -/
def ofFunction (f : Group → α) : PerGroup α := ⟨f .g1, f .g2, f .gt, f .zr⟩

/-- The value for a group. -/
def get (t : PerGroup α) : Group → α
  | .g1 => t.g1
  | .g2 => t.g2
  | .gt => t.gt
  | .zr => t.zr

@[simp] theorem get_ofFunction (f : Group → α) (g : Group) : (ofFunction f).get g = f g := by
  cases g <;> rfl

end PerGroup

end BilinearGroups
