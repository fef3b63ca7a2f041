import DocMark.Token
import DocMark.Token.Cursor

/-!
# The state of the scanner

The scanner turns characters into tokens.  Two things make it more than a lexer.

*Indentation.*  In block style the nesting of collections follows from columns.  The scanner keeps
the column of the innermost collection and those of the collections around it, opens a collection
where a deeper column calls for one (`openBlock`) and closes collections when a line starts further
left (`closeBlocks`).

*Simple keys.*  `a: b` is a mapping whose key is known as one only when the colon is read.  So the
scanner remembers where a key may have started (`Candidate`), and inserts the tokens that belong
before it when the colon comes (`insertAt`).  A token is handed out only when nothing can be
inserted before it any more; `taken` counts those that are out.
-/

namespace DocMark.Yaml

/-- A token with the mark that the scanner gives it. -/
structure Scanned where
  kind : TokenKind
  mark : Mark
  deriving DecidableEq, Repr, Inhabited

/-- A place where a simple key may have started. -/
structure Candidate where
  /-- A colon may still make a key of it. -/
  possible : Bool := false
  /-- It must become one. -/
  required : Bool := false
  /-- How many tokens precede it. -/
  number : Nat := 0
  mark : Mark := ⟨0, 0, 0⟩
  deriving DecidableEq, Repr, Inhabited

/-- An indentation that was left for a deeper one. -/
structure Indent where
  /-- The column that was in force before. -/
  before : Int
  /-- The deeper one belongs to a block collection, which has an end. -/
  block : Bool
  deriving DecidableEq, Repr

/-- The state between two tokens. -/
structure Scanner where
  cursor : Cursor
  /-- The tokens found so far, the last one first. -/
  found : List Scanned := []
  /-- The number of tokens found so far. -/
  count : Nat := 0
  /-- The number of tokens that are handed out. -/
  taken : Nat := 0
  /-- The candidate on the innermost level of brackets. -/
  key : Candidate := {}
  /-- The candidates on the levels around it, from the inside out. -/
  outerKeys : List Candidate := []
  /-- A key may start here. -/
  keyAllowed : Bool := true
  /-- The column of the innermost block; `-1` outside all blocks. -/
  indent : Int := -1
  indents : List Indent := []
  /-- Where a quoted text or a flow collection has just ended: a colon may follow directly. -/
  adjacent : Nat := 0
  /-- A pair inside brackets needs no mapping of its own: a brace or a question mark was read, and
  no single pair has ended since. -/
  inFlowMapping : Bool := false
  /-- A mapping of a single pair was opened inside a flow sequence. -/
  inSinglePair : Bool := false
  deriving Repr

namespace Scanner

def column (s : Scanner) : Int := s.cursor.column

def mark (s : Scanner) : Mark := s.cursor.mark

/-- The number of brackets and braces that are open. -/
def depth (s : Scanner) : Nat := s.outerKeys.length

/-- Inside brackets or braces. -/
def inFlow (s : Scanner) : Bool := !s.outerKeys.isEmpty

def fail {α : Type} (s : Scanner) (f : Fault) : Except ScanError α := s.cursor.fail f

/-- Lets the cursor move. -/
def move (s : Scanner) (c : Cursor) : Scanner := { s with cursor := c }

/-! ### The queue of tokens -/

/-- The tokens found so far. -/
def tokens (s : Scanner) : List Scanned := s.found.reverse

def push (s : Scanner) (kind : TokenKind) (mark : Mark) : Scanner :=
  { s with found := ⟨kind, mark⟩ :: s.found, count := s.count + 1 }

/-- Inserts a token that has `number` tokens before it. -/
def insertAt (s : Scanner) (number : Nat) (kind : TokenKind) (mark : Mark) : Scanner :=
  { s with found := s.found.insertIdx (s.count - number) ⟨kind, mark⟩, count := s.count + 1 }

/-- The last token, if it is not handed out yet. -/
def lastPending? (s : Scanner) : Option Scanned :=
  if s.taken < s.count then s.found.head? else none

/-! ### Simple keys -/

/-- Outside brackets, a key does not go past its line, nor past 1024 characters. -/
def keyIsStale (s : Scanner) : Bool :=
  s.key.possible && !s.inFlow
    && (s.key.mark.line < s.cursor.line || s.key.mark.index + 1024 < s.cursor.index)

/-- Gives up a candidate that can no longer be a key. -/
def dropStaleKey (s : Scanner) : Except ScanError Scanner :=
  if s.keyIsStale then
    if s.key.required then s.fail .keyWithoutColon
    else .ok { s with key := { s.key with possible := false } }
  else .ok s

/-- In a block whose column this is, nothing but a key can start here. -/
def keyIsRequired (s : Scanner) : Bool :=
  !s.inFlow && s.indent = s.column && s.indents.head?.any (·.block)

/-- Remembers that a key may start here. -/
def saveKey (s : Scanner) : Scanner :=
  if s.keyAllowed then
    { s with key := ⟨true, s.keyIsRequired, s.count, s.mark⟩ }
  else s

/-- Gives up the candidate, because something else has been found. -/
def removeKey (s : Scanner) : Except ScanError Scanner :=
  if s.key.possible && s.key.required then s.fail .keyExpected
  else .ok { s with key := { s.key with possible := false } }

/-- The candidates of all levels. -/
def keys (s : Scanner) : List Candidate := s.key :: s.outerKeys

/-- The number of tokens before which nothing can be inserted any more. -/
def settled (s : Scanner) : Nat :=
  ((s.keys.filter (·.possible)).map (·.number)).foldl min s.count

/-- Hands out the tokens that are settled. -/
def handOut (s : Scanner) : Except ScanError Scanner := do
  let s ← s.dropStaleKey
  .ok { s with taken := s.settled }

/-! ### Indentation -/

/-- Leaves an indentation that has no end of its own, where a block starts at `column`. -/
def leaveHalfIndent (s : Scanner) (column : Int) : Scanner :=
  match s.indents with
  | i :: is =>
    if s.indent ≤ column && !i.block then { s with indent := i.before, indents := is } else s
  | [] => s

/-- Opens a block collection at `column`, if that lies deeper than the innermost one.  Its token
goes to the end, or before the token of the given number. -/
def openBlock (s : Scanner) (column : Nat) (number? : Option Nat) (kind : TokenKind) (mark : Mark) :
    Scanner :=
  if s.inFlow then s
  else
    let s := s.leaveHalfIndent column
    if s.indent < column then
      let s := { s with indents := ⟨s.indent, true⟩ :: s.indents, indent := column }
      match number? with
      | none => s.push kind mark
      | some n => s.insertAt n kind mark
    else s

/-- What remains of nested indentations when a line starts at `column`, and how many collections
end with those that are left. -/
def leave (column : Int) (indent : Int) : List Indent → Int × List Indent × Nat
  | [] => (indent, [], 0)
  | i :: is =>
    if column < indent then
      let (indent, is, ends) := leave column i.before is
      (indent, is, if i.block then ends + 1 else ends)
    else (indent, i :: is, 0)

/-- Closes the collections that lie deeper than `column`. -/
def closeBlocks (s : Scanner) (column : Int) : Scanner :=
  if s.inFlow then s
  else
    let (indent, indents, ends) := leave column s.indent s.indents
    { s with
      indent := indent
      indents := indents
      found := List.replicate ends ⟨.blockEnd, s.mark⟩ ++ s.found
      count := s.count + ends }

/-- One column deeper than the innermost block, without a block of its own. -/
def indentHalf (s : Scanner) : Scanner :=
  if !s.inFlow && s.indents.head?.any (·.block) then
    { s with indents := ⟨s.indent, false⟩ :: s.indents, indent := s.indent + 1 }
  else s

/-- Back to the innermost block. -/
def leaveHalfIndents (s : Scanner) : Scanner :=
  let half := s.indents.takeWhile (!·.block)
  { s with
    indent := (half.getLast?.map (·.before)).getD s.indent
    indents := s.indents.drop half.length }

/-! ### Between tokens -/

/-- A tab stands where block indentation should be; then nothing may follow on the line. -/
def tabIsIndentation (s : Scanner) : Bool :=
  s.cursor.peek = '\t' && !s.indents.isEmpty && s.cursor.leading && s.column < s.indent

/-- Reads what does not belong to a token, in at most as many steps as the text has characters. -/
def skipToTokenUpTo : List Char → Scanner → Except ScanError Scanner
  | [], s => .ok s
  | _ :: more, s =>
    let d := s.cursor.peek
    if s.tabIsIndentation then do
      let c ← s.cursor.skipToLineEnd .tabInIndentation none
      skipToTokenUpTo more (s.move c)
    else if isBlank d then skipToTokenUpTo more (s.move (s.cursor.blanks 1))
    else if isBreak d then
      skipToTokenUpTo more
        { s with cursor := s.cursor.newline, keyAllowed := s.keyAllowed || !s.inFlow }
    else if d = '#' then skipToTokenUpTo more (s.move (s.cursor.skipWhile (!isBreakOrEnd ·)))
    else .ok s

/-- Reads blanks, line breaks and comments.  Every step reads a character. -/
def skipToToken (s : Scanner) : Except ScanError Scanner :=
  skipToTokenUpTo s.cursor.rest s

end Scanner

end DocMark.Yaml
