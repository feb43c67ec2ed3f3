import Mathlib.Data.Nat.Notation
import BilinearGroups.Json.Token

/-!
# JSON texts

The grammar of JSON as relations, apart from any reader: what is a number, a string, a value, and
which characters a string spells. Lists and objects are given by their items and members, each with
the blanks around it, and their text puts commas between them.

The text of a string need not spell characters, as it may hold a number of half a character without
the other half. So there are two relations for strings: `StringText` is about the text alone, and
`Spells` says which characters it stands for.
-/

namespace BilinearGroups.Json

/-- The text is blank. -/
def Blanks (cs : List Char) : Prop := ∀ c ∈ cs, isBlank c = true

/-- A text with blanks around it. -/
structure Padded where
  /-- The blanks before the text. -/
  before : List Char
  /-- The text. -/
  text : List Char
  /-- The blanks after the text. -/
  after : List Char
  blanks_before : Blanks before
  blanks_after : Blanks after

/-- The text together with the blanks. -/
def Padded.render (x : Padded) : List Char := x.before ++ (x.text ++ x.after)

/-- A text without blanks around it. -/
def Padded.bare (text : List Char) : Padded where
  before := []
  text := text
  after := []
  blanks_before := List.forall_mem_nil _
  blanks_after := List.forall_mem_nil _

theorem Padded.text_bare (text : List Char) : (Padded.bare text).text = text := rfl

theorem Padded.render_bare (text : List Char) : (Padded.bare text).render = text :=
  List.append_nil text

/-- A member of an object: the text between the quotes of its name, and its value. The blanks of the
name are outside the quotes. -/
structure Member where
  /-- The name. -/
  key : Padded
  /-- The value. -/
  value : Padded

/-- The text of a member. -/
def Member.render (m : Member) : List Char :=
  m.key.before ++ '"' :: (m.key.text ++ '"' :: (m.key.after ++ ':' :: m.value.render))

/-! ## Strings -/

/-- The letters that stand for a character after a backslash. -/
def letters : List (Char × Char) :=
  [('"', '"'), ('\\', '\\'), ('/', '/'), ('b', '\x08'), ('f', '\x0c'), ('n', '\n'), ('r', '\r'),
    ('t', '\t')]

/-- The hexadecimal digits in lower case. -/
def lowerDigits : List Char :=
  ['0', '1', '2', '3', '4', '5', '6', '7', '8', '9', 'a', 'b', 'c', 'd', 'e', 'f']

/-- The hexadecimal digits in upper case. -/
def upperDigits : List Char :=
  ['0', '1', '2', '3', '4', '5', '6', '7', '8', '9', 'A', 'B', 'C', 'D', 'E', 'F']

/-- The character is the hexadecimal digit of a value, in either case. -/
def HexDigit (n : ℕ) (c : Char) : Prop := lowerDigits[n]? = some c ∨ upperDigits[n]? = some c

/-- The four hexadecimal digits of a 16-bit unit. -/
inductive UnitText : ℕ → List Char → Prop
  /-- The unit has its digits, the highest first. -/
  | digits {m n k l : ℕ} {a b c d : Char} : HexDigit m a → HexDigit n b → HexDigit k c →
    HexDigit l d → UnitText (4096 * m + 256 * n + 16 * k + l) [a, b, c, d]

/-- The character stands for itself in a string. -/
def IsPlain (c : Char) : Prop := 32 ≤ c.toNat ∧ c ≠ '"' ∧ c ≠ '\\'

instance (c : Char) : Decidable (IsPlain c) := inferInstanceAs (Decidable (_ ∧ _ ∧ _))

/-- The text between the quotes of a string. -/
inductive StringText : List Char → Prop
  /-- The empty string. -/
  | nil : StringText []
  /-- A character follows that stands for itself. -/
  | plain {c : Char} {cs : List Char} : IsPlain c → StringText cs → StringText (c :: cs)
  /-- A letter follows that stands for a character. -/
  | letter {l c : Char} {cs : List Char} : (l, c) ∈ letters → StringText cs →
    StringText ('\\' :: l :: cs)
  /-- A 16-bit unit follows, whether or not it stands for a character. -/
  | unit {n : ℕ} {ds cs : List Char} : UnitText n ds → StringText cs →
    StringText ('\\' :: 'u' :: (ds ++ cs))

/-- The characters that the text between the quotes of a string stands for. -/
inductive Spells : List Char → List Char → Prop
  /-- The empty string. -/
  | nil : Spells [] []
  /-- A character follows that stands for itself. -/
  | plain {c : Char} {s cs : List Char} : IsPlain c → Spells s cs → Spells (c :: s) (c :: cs)
  /-- A letter follows that stands for a character. -/
  | letter {l c : Char} {s cs : List Char} : (l, c) ∈ letters → Spells s cs →
    Spells (c :: s) ('\\' :: l :: cs)
  /-- The number of a character follows, if it fits a 16-bit unit. -/
  | unit {c : Char} {ds s cs : List Char} : UnitText c.toNat ds → Spells s cs →
    Spells (c :: s) ('\\' :: 'u' :: (ds ++ cs))
  /-- The number of any other character is split into two units. -/
  | pair {c : Char} {high low : ℕ} {ds es s cs : List Char} : high < 1024 → low < 1024 →
    c.toNat = 0x10000 + 1024 * high + low → UnitText (0xd800 + high) ds →
    UnitText (0xdc00 + low) es → Spells s cs →
    Spells (c :: s) ('\\' :: 'u' :: (ds ++ '\\' :: 'u' :: (es ++ cs)))

/-! ## Numbers -/

/-- The text is made of digits, of which there is at least one. -/
def Digits (cs : List Char) : Prop := cs ≠ [] ∧ ∀ c ∈ cs, c.isDigit = true

/-- The whole part of a number, which starts with zero only if it is zero. -/
inductive WholeText : List Char → Prop
  /-- Zero. -/
  | zero : WholeText ['0']
  /-- Any other whole part. -/
  | digits {c : Char} {cs : List Char} : c ≠ '0' → Digits (c :: cs) → WholeText (c :: cs)

/-- The fraction of a number, if it has one. -/
inductive FractionText : List Char → Prop
  /-- There is no fraction. -/
  | none : FractionText []
  /-- Digits follow a point. -/
  | digits {cs : List Char} : Digits cs → FractionText ('.' :: cs)

/-- The exponent of a number, if it has one. -/
inductive ExponentText : List Char → Prop
  /-- There is no exponent. -/
  | none : ExponentText []
  /-- Digits follow a letter, perhaps with a sign. -/
  | digits {e : Char} {sign cs : List Char} : e = 'e' ∨ e = 'E' → sign ∈ [[], ['+'], ['-']] →
    Digits cs → ExponentText (e :: (sign ++ cs))

/-- A number. -/
inductive NumberText : List Char → Prop
  /-- A number has a whole part, and perhaps a sign, a fraction and an exponent. -/
  | parts {sign whole fraction exponent : List Char} : sign ∈ [[], ['-']] → WholeText whole →
    FractionText fraction → ExponentText exponent →
    NumberText (sign ++ (whole ++ (fraction ++ exponent)))

/-! ## Values -/

/-- The text of a list. The blanks are those after the bracket. -/
def listText (ws : List Char) (items : List Padded) : List Char :=
  '[' :: (ws ++ (separated (items.map Padded.render) ++ [']']))

/-- The text of an object. The blanks are those after the brace. -/
def objectText (ws : List Char) (members : List Member) : List Char :=
  '{' :: (ws ++ (separated (members.map Member.render) ++ ['}']))

/-- A value without blanks around it. -/
inductive ValueText : List Char → Prop
  /-- Nothing. -/
  | null : ValueText ['n', 'u', 'l', 'l']
  /-- A truth value that is true. -/
  | yes : ValueText ['t', 'r', 'u', 'e']
  /-- A truth value that is false. -/
  | no : ValueText ['f', 'a', 'l', 's', 'e']
  /-- A number. -/
  | number {cs : List Char} : NumberText cs → ValueText cs
  /-- A string. -/
  | string {cs : List Char} : StringText cs → ValueText ('"' :: (cs ++ ['"']))
  /-- A list. -/
  | list {ws : List Char} {items : List Padded} : Blanks ws → (∀ x ∈ items, ValueText x.text) →
    ValueText (listText ws items)
  /-- An object. -/
  | object {ws : List Char} {members : List Member} : Blanks ws →
    (∀ m ∈ members, StringText m.key.text) → (∀ m ∈ members, ValueText m.value.text) →
    ValueText (objectText ws members)

end BilinearGroups.Json
