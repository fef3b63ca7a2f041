import DocMark.Value

/-!
# Taking a configuration file apart

The grammar of configuration files is written with parsers that take characters from the front of a
text and count them, so that everything they find can say where it was written.  A parser that
refuses gives no reason: a text that does not follow the grammar is simply not a configuration
file.

A loop runs at most as often as there are characters left (`many`); every turn of the loops in the
grammar takes at least one.
-/

namespace DocMark.Toml

/-- What is left of a text, and the number of characters before it. -/
structure Source where
  offset : Nat
  rest : List Char
  deriving Repr

/-- Takes characters from the front of a source, or refuses it. -/
abbrev Parser (α : Type) := StateT Source Option α

namespace Parser

variable {α : Type}

def refuse : Parser α := fun _ => none

/-- The next character, which stays where it is. -/
def peek : Parser (Option Char) := fun s => some (s.rest.head?, s)

/-- The characters that are left. -/
def rest : Parser (List Char) := fun s => some (s.rest, s)

/-- Takes the first `n` characters of those that are left. -/
def take (n : Nat) : Parser (List Char) := fun s =>
  if n ≤ s.rest.length then some (s.rest.take n, ⟨s.offset + n, s.rest.drop n⟩) else none

/-- Takes a character with the property `p`. -/
def satisfy (p : Char → Bool) : Parser Char := fun s =>
  match s.rest with
  | c :: cs => if p c then some (c, ⟨s.offset + 1, cs⟩) else none
  | [] => none

def char (c : Char) : Parser Unit := do let _ ← satisfy (· = c)

/-- Takes exactly these characters. -/
def exactly (cs : List Char) : Parser Unit := fun s =>
  if cs.isPrefixOf s.rest then some ((), ⟨s.offset + cs.length, s.rest.drop cs.length⟩) else none

/-- Takes all characters with the property `p` that come first. -/
def takeWhile (p : Char → Bool) : Parser (List Char) := fun s =>
  let cs := s.rest.takeWhile p
  some (cs, ⟨s.offset + cs.length, s.rest.dropWhile p⟩)

/-- Tries a parser; takes nothing if it refuses. -/
def optional? (p : Parser α) : Parser (Option α) := fun s =>
  match p s with
  | some (a, s') => some (some a, s')
  | none => some (none, s)

/-- Runs a parser until it refuses, at most `n` times. -/
def upTo : Nat → Parser α → Parser (List α)
  | 0, _ => pure []
  | n + 1, p => do
    match ← optional? p with
    | none => return []
    | some a => return a :: (← upTo n p)

/-- Runs a parser until it refuses. -/
def many (p : Parser α) : Parser (List α) := do upTo (← rest).length p

/-- One or more of the same with something between them. -/
def separated (p : Parser α) (between : Parser Unit) : Parser (List α) := do
  let first ← p
  let others ← many (do between; p)
  return first :: others

/-- With the place of what was taken. -/
def located (p : Parser α) : Parser (Located α) := fun s =>
  (p s).map fun (a, s') => (⟨⟨s.offset, s'.offset⟩, a⟩, s')

end Parser

/-! ### Blanks, line ends and comments -/

open DocMark.Toml.Parser

def isBlank (c : Char) : Bool := c = ' ' || c = '\t'

/-- May stand in a comment or a quoted text: a tab, or anything but a control of ASCII. -/
def isVisible (c : Char) : Bool := c = '\t' || (0x20 ≤ c.toNat && c.toNat ≠ 0x7F)

def blanks : Parser Unit := do let _ ← takeWhile isBlank

/-- A line feed, with or without a carriage return before it. -/
def newline : Parser Unit := do
  if (← peek) = some '\r' then char '\r'
  char '\n'

def comment : Parser Unit := do
  char '#'
  let _ ← takeWhile isVisible

/-- A line feed or the end of the text. -/
def lineBreak : Parser Unit := do
  if (← rest).isEmpty then pure () else newline

/-- Nothing but blanks and a comment up to the end of the line. -/
def lineEnd : Parser Unit := do
  blanks
  let _ ← optional? comment
  lineBreak

/-- Blanks, line ends and comments in any order. -/
def spacing : Parser Unit := do
  let _ ← many do
    match ← peek with
    | some '#' => comment
    | some c => if isBlank c then char c else newline
    | none => refuse

end DocMark.Toml
