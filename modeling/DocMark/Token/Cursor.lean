import DocMark.Text.Bytes
import DocMark.Token.Character
import DocMark.Token.Fault

/-!
# Reading a text

A *cursor* is a text that is still to be read, with the place it has come to.  The moves over it are
total: they read past the end as if the text went on with NUL.

Two things about a cursor go beyond the text itself.  `leading` says that only blanks have been
read on the current line so far; `blanks` keeps it and `skip` ends it.  And `lookahead` counts the
characters already fetched beyond the current one; only the rest of a block scalar's line that lies
beyond them is measured in bytes (`skipLine`).
-/

namespace DocMark.Yaml

/-- What is still to be read of a text. -/
structure Cursor where
  rest : List Char
  lookahead : Nat := 0
  mark : Mark := {}
  leading : Bool := true
  deriving DecidableEq, Repr

namespace Cursor

/-- A cursor before the first character.  A NUL ends the text. -/
def ofText (text : List Char) : Cursor := { rest := text.takeWhile (· ≠ nul) }

/-- The character `k` places ahead. -/
def peek (c : Cursor) (k : Nat := 0) : Char := c.rest.getD k nul

theorem peek_of_nil {c : Cursor} (h : c.rest = []) : c.peek = nul := by
  rw [peek, h]
  rfl

theorem peek_of_cons {c : Cursor} {d : Char} {rest : List Char} (h : c.rest = d :: rest) :
    c.peek = d := by
  rw [peek, h]
  rfl

def index (c : Cursor) : Nat := c.mark.index

def line (c : Cursor) : Nat := c.mark.line

def column (c : Cursor) : Nat := c.mark.column

/-- Fetches `n` characters if fewer are there. -/
def fetch (c : Cursor) (n : Nat) : Cursor := { c with lookahead := max c.lookahead n }

/-- Reads `n` blanks of the current line. -/
def blanks (c : Cursor) (n : Nat) : Cursor :=
  { c with
    rest := c.rest.drop n
    lookahead := c.lookahead - n
    mark := { c.mark with index := c.mark.index + n, column := c.mark.column + n } }

/-- Reads `n` characters of the current line. -/
def skip (c : Cursor) (n : Nat) : Cursor := { c.blanks n with leading := false }

/-- Reads all characters up to one that fails `p`, if there is any to read. -/
def skipWhile (c : Cursor) (p : Char → Bool) : Cursor :=
  match (c.rest.takeWhile p).length with
  | 0 => c
  | n => c.skip n

/-- Reads a line break of `n` characters. -/
def breakOf (c : Cursor) (n : Nat) : Cursor :=
  { rest := c.rest.drop n
    lookahead := c.lookahead - n
    mark := ⟨c.mark.index + n, c.mark.line + 1, 0⟩
    leading := true }

/-- Reads a line break, if there is one. -/
def newline (c : Cursor) : Cursor :=
  match c.rest with
  | '\r' :: '\n' :: _ => c.breakOf 2
  | d :: _ => if isBreak d then c.breakOf 1 else c
  | [] => c

def atEnd (c : Cursor) : Bool := c.rest.isEmpty

/-- At the end of a line or of the text. -/
def atLineEnd (c : Cursor) : Bool := isBreakOrEnd c.peek

/-- Raises a fault at the current place. -/
def fail {α : Type} (c : Cursor) (f : Fault) : Except ScanError α := .error ⟨f, c.mark⟩

/-- Three times the same of the given characters, and then the end of a word. -/
def atMarker (c : Cursor) (ds : List Char) : Bool :=
  ds.contains c.peek && c.peek 1 = c.peek && c.peek 2 = c.peek && isSeparator (c.peek 3)

/-- At the start of a line that starts with `---` or `...`. -/
def atDocumentMarker (c : Cursor) : Bool := c.column = 0 && c.atMarker ['-', '.']

/-- What kinds of blanks were read. -/
structure Blanks where
  tab : Bool
  space : Bool
  deriving DecidableEq, Repr

/-- Reads the blanks up to the next token and a comment after them, all on the current line. -/
def skipBlanks (c : Cursor) : Except ScanError (Blanks × Cursor) :=
  let found := c.rest.takeWhile isBlank
  let c := c.blanks found.length
  let kinds : Blanks := ⟨found.contains '\t', found.contains ' '⟩
  if c.peek = '#' then
    if found.isEmpty then c.fail .commentNotSeparated
    else .ok (kinds, c.skipWhile (!isBreakOrEnd ·))
  else .ok (kinds, c)

/-- Reads blanks and a comment, and demands that nothing else follows on the line.  The fault is
raised at `mark?`, or else at the offending character. -/
def skipToLineEnd (c : Cursor) (f : Fault) (mark? : Option Mark) : Except ScanError Cursor := do
  let (_, c) ← c.skipBlanks
  if c.atLineEnd then .ok c else .error ⟨f, mark?.getD c.mark⟩

/-- Reads the rest of a line of a block scalar.  Characters that were not fetched yet count as many
places as they have bytes. -/
def skipLine (c : Cursor) : Cursor :=
  let line := c.rest.takeWhile (!isBreakOrEnd ·)
  let width := min c.lookahead line.length + Text.byteLength (line.drop c.lookahead)
  { c with
    rest := c.rest.drop line.length
    lookahead := c.lookahead - line.length
    mark := { c.mark with index := c.mark.index + width, column := c.mark.column + width } }

end Cursor

end DocMark.Yaml
