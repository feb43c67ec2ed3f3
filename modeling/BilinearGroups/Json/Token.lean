import BilinearGroups.Bytes
import BilinearGroups.Json.Error
import BilinearGroups.Json.Number

/-!
# The grammar of JSON

The pieces of the grammar are functions from a text to what they read at its start and what follows.
Texts are read from left to right and no further than needed, so of several faults the first is
found.

Strings are read in two steps: first the pieces between the quotes, which may be characters or
numbered 16-bit units, and then the characters that units stand for. A value that is not wanted is
skipped, and skipping takes only the first step, so the units in it need not stand for characters.
-/

namespace BilinearGroups.Json

open Bytes (hexValue?)

/-- The blanks of the grammar. -/
def isBlank (c : Char) : Bool := c == ' ' || c == '\n' || c == '\t' || c == '\r'

/-- The text after the blanks at its start. -/
def skipBlanks (cs : List Char) : List Char := cs.dropWhile isBlank

/-- The text after a given word at its start. -/
def word? : (word : List Char) → List Char → Option (List Char)
  | [], cs => some cs
  | w :: ws, c :: cs => if w = c then word? ws cs else none
  | _ :: _, [] => none

/-! ## Strings -/

/-- A piece of a string. -/
inductive Piece where
  /-- A character. -/
  | char (c : Char)
  /-- A 16-bit unit given by its number. -/
  | unit (n : Nat)
deriving DecidableEq

/-- The unit with the given four digits. -/
def unit? (a b c d : Char) : Option Nat := do
  return 4096 * (← hexValue? a) + 256 * (← hexValue? b) + 16 * (← hexValue? c) + (← hexValue? d)

/-- The character that a letter after a backslash stands for. -/
def escaped? : Char → Option Char
  | '"' => some '"'
  | '\\' => some '\\'
  | '/' => some '/'
  | 'b' => some '\x08'
  | 'f' => some '\x0c'
  | 'n' => some '\n'
  | 'r' => some '\r'
  | 't' => some '\t'
  | _ => none

/-- The pieces of a string up to its closing quote, and what follows the quote. -/
def pieces? : List Char → Option (List Piece × List Char)
  | '"' :: cs => some ([], cs)
  | '\\' :: 'u' :: a :: b :: c :: d :: cs => do
    let n ← unit? a b c d
    let (ps, rest) ← pieces? cs
    return (.unit n :: ps, rest)
  | '\\' :: e :: cs => do
    let c ← escaped? e
    let (ps, rest) ← pieces? cs
    return (.char c :: ps, rest)
  | c :: cs =>
    if c.toNat < 32 ∨ c = '\\' then none
    else do
      let (ps, rest) ← pieces? cs
      return (.char c :: ps, rest)
  | [] => none

/-- The characters of pieces. A unit from the high surrogates stands for a character together with a
unit from the low ones after it, and neither occurs alone. -/
def characters? : List Piece → Option (List Char)
  | [] => some []
  | .char c :: ps => (characters? ps).map (c :: ·)
  | .unit high :: .unit low :: ps =>
    if 0xd800 ≤ high ∧ high < 0xdc00 then
      if 0xdc00 ≤ low ∧ low < 0xe000 then
        (characters? ps).map (Char.ofNat (0x10000 + 1024 * (high - 0xd800) + (low - 0xdc00)) :: ·)
      else none
    else if 0xdc00 ≤ high ∧ high < 0xe000 then none
    else (characters? (.unit low :: ps)).map (Char.ofNat high :: ·)
  | .unit n :: ps =>
    if 0xd800 ≤ n ∧ n < 0xe000 then none else (characters? ps).map (Char.ofNat n :: ·)

/-- The string whose opening quote has been read, and what follows it. -/
def string? (cs : List Char) : Option (String × List Char) := do
  let (ps, rest) ← pieces? cs
  return (String.ofList (← characters? ps), rest)

/-! ## Skipping a value -/

mutual

/-- The text after the value at its start. -/
def skipValue? : (fuel : Nat) → List Char → Option (List Char)
  | 0, _ => none
  | fuel + 1, cs =>
    match skipBlanks cs with
    | '[' :: cs =>
      match skipBlanks cs with
      | ']' :: cs => some cs
      | cs => skipElements? fuel cs
    | '{' :: cs =>
      match skipBlanks cs with
      | '}' :: cs => some cs
      | cs => skipMembers? fuel cs
    | '"' :: cs => (pieces? cs).map Prod.snd
    | 'n' :: cs => word? ['u', 'l', 'l'] cs
    | 't' :: cs => word? ['r', 'u', 'e'] cs
    | 'f' :: cs => word? ['a', 'l', 's', 'e'] cs
    | cs => (Number.read? cs).map Prod.snd

/-- The text after the remaining elements of a list, of which there is at least one. -/
def skipElements? : (fuel : Nat) → List Char → Option (List Char)
  | 0, _ => none
  | fuel + 1, cs => do
    match skipBlanks (← skipValue? fuel cs) with
    | ',' :: cs => skipElements? fuel cs
    | ']' :: cs => some cs
    | _ => none

/-- The text after the remaining members of a list of named values, of which there is at least
one. -/
def skipMembers? : (fuel : Nat) → List Char → Option (List Char)
  | 0, _ => none
  | fuel + 1, cs =>
    match skipBlanks cs with
    | '"' :: cs => do
      match skipBlanks (← pieces? cs).2 with
      | ':' :: cs =>
        match skipBlanks (← skipValue? fuel cs) with
        | ',' :: cs => skipMembers? fuel cs
        | '}' :: cs => some cs
        | _ => none
      | _ => none
    | _ => none

end

/-- The text after the value at its start. Every two calls of the recursion take a character. -/
def skip? (cs : List Char) : Option (List Char) := skipValue? (2 * cs.length + 2) cs

/-! ## The shape of a value -/

/-- What stands at the start of a text, as far as a refusal shows it: a list is recognised by its
first character, everything else is read to its end. -/
def shape? : List Char → Option Shape
  | 'n' :: cs => (word? ['u', 'l', 'l'] cs).map fun _ ↦ .null
  | 't' :: cs => (word? ['r', 'u', 'e'] cs).map fun _ ↦ .boolean true
  | 'f' :: cs => (word? ['a', 'l', 's', 'e'] cs).map fun _ ↦ .boolean false
  | '"' :: cs => (string? cs).map fun (s, _) ↦ .text s
  | '[' :: _ => some .sequence
  | '{' :: _ => some .map
  | cs => do
    let (number, _) ← Number.read? cs
    match ← number.value? with
    | .integer n => return .integer n
    | .double x => return .double (doubleText x)

/-! ## Writing

Values are written without blanks. In a string a quote, a backslash and the control characters are
written after a backslash, the latter by a letter where they have one and by their number otherwise;
all other characters stand for themselves.
-/

/-- A character of a string as it is written. -/
def escapeChar (c : Char) : List Char :=
  if c = '"' then ['\\', '"']
  else if c = '\\' then ['\\', '\\']
  else if c = '\x08' then ['\\', 'b']
  else if c = '\x0c' then ['\\', 'f']
  else if c = '\n' then ['\\', 'n']
  else if c = '\r' then ['\\', 'r']
  else if c = '\t' then ['\\', 't']
  else if c.toNat < 32 then
    ['\\', 'u', '0', '0', Bytes.hexDigit (c.toNat / 16), Bytes.hexDigit (c.toNat % 16)]
  else [c]

/-- A string in quotes. -/
def printString (s : String) : List Char := '"' :: s.toList.flatMap escapeChar ++ ['"']

/-- Written values with commas between them. -/
def separated : List (List Char) → List Char
  | [] => []
  | [item] => item
  | item :: items => item ++ ',' :: separated items

/-- A list of bytes. -/
def printBytes (bs : Bytes) : List Char :=
  '[' :: separated (bs.map fun b ↦ Nat.toDigits 10 b.toNat) ++ [']']

/-- A record of two named values. -/
def printRecord (firstName : String) (first : List Char) (secondName : String)
    (second : List Char) : String :=
  String.ofList <| '\x7b' ::
    separated [printString firstName ++ ':' :: first, printString secondName ++ ':' :: second]
      ++ ['\x7d']

end BilinearGroups.Json
