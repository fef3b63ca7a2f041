import DocMark.Token.Scanner

/-!
# Scalars

The three styles of scalars: quoted, plain, and literal or folded blocks.  What a scalar says does
not matter here, only where it ends.

A loop takes a text that bounds the number of its steps, one for each character.  Every step reads a
character, so the rest of the text will do.
-/

namespace DocMark.Yaml

namespace Cursor

/-! ### Quoted scalars -/

/-- The quotation marks. -/
inductive Quote where
  | single
  | double
  deriving DecidableEq, Repr

def Quote.char : Quote → Char
  | .single => '\''
  | .double => '"'

/-- Reads a backslash and what belongs to it. -/
def escape (m : Mark) (c : Cursor) : Except ScanError Cursor :=
  let d := c.peek 1
  let n := escapeDigits d
  let digits := (c.rest.drop 2).take n
  if !isEscape d then .error ⟨.escapeUnknown, m⟩
  else if digits.length < n || !digits.all isHexDigit then .error ⟨.escapeNotHexadecimal, m⟩
  else if isNoScalarValue (hexValue digits) then .error ⟨.escapeOfNoCharacter, m⟩
  else .ok (c.skip (n + 2))

/-- Reads up to the next blank, line break or closing quotation mark.  Says whether a backslash has
joined this line to the next. -/
def quotedWordUpTo (m : Mark) (q : Quote) : List Char → Cursor → Except ScanError (Bool × Cursor)
  | [], c => .ok (false, c)
  | _ :: more, c =>
    let d := c.peek
    if isSeparator d then .ok (false, c)
    else if q = .single && d = '\'' && c.peek 1 = '\'' then quotedWordUpTo m q more (c.skip 2)
    else if d = q.char then .ok (false, c)
    else if q = .double && d = '\\' then
      if isBreak (c.peek 1) then .ok (true, (c.skip 1).newline)
      else do
        let c ← escape m c
        quotedWordUpTo m q more c
    else quotedWordUpTo m q more (c.skip 1)

/-- Reads blanks and line breaks inside quotation marks.  `joined` says that a line break has been
read; then a tab must not stand left of the block. -/
def quotedGapUpTo (indent : Int) : List Char → Bool → Cursor → Except ScanError Cursor
  | [], _, c => .ok c
  | _ :: more, joined, c =>
    let d := c.peek
    if isBlank d then
      if joined && d = '\t' && c.column < indent then c.fail .quotedTab
      else quotedGapUpTo indent more joined (c.blanks 1)
    else if isBreak d then quotedGapUpTo indent more true c.newline
    else .ok c

/-- Reads a quoted text up to its closing quotation mark, in rounds of a word and a gap. -/
def quotedUpTo (m : Mark) (q : Quote) (indent : Int) : List Char → Cursor → Except ScanError Cursor
  | [], _ => .error ⟨.quotedNotClosed, m⟩
  | _ :: more, c => do
    if c.atDocumentMarker then .error ⟨.quotedDocumentMark, m⟩
    else if c.atEnd then .error ⟨.quotedNotClosed, m⟩
    else if c.column < indent then .error ⟨.quotedIndentation, m⟩
    else
      let (joined, c) ← quotedWordUpTo m q c.rest c
      if c.peek = q.char then .ok c
      else
        let c ← quotedGapUpTo indent c.rest joined c
        quotedUpTo m q indent more c

/-- Reads a quoted text with both quotation marks, and blanks and a comment after it. -/
def quoted (q : Quote) (indent : Int) (c : Cursor) : Except ScanError Cursor := do
  let start := c.skip 1
  let c ← quotedUpTo c.mark q indent (nul :: start.rest) start
  let (_, c) ← (c.skip 1).skipBlanks
  .ok c

/-! ### Plain scalars -/

/-- The character `d` before `next` ends a plain scalar. -/
def endsPlain (inFlow : Bool) (d next : Char) : Bool :=
  isSeparator d
    || (d = ':' && (isSeparator next || (inFlow && isFlowIndicator next)))
    || (inFlow && isFlowIndicator d)

/-- The length of the plain word that a text starts with. -/
def plainWordLength (inFlow : Bool) : List Char → Nat
  | [] => 0
  | d :: ds => if endsPlain inFlow d (ds.headD nul) then 0 else plainWordLength inFlow ds + 1

/-- Reads one word. -/
def plainWord (inFlow : Bool) (c : Cursor) : Cursor :=
  match plainWordLength inFlow c.rest with
  | 0 => c
  | n => c.skip n

/-- Reads the blanks and line breaks between words.  A tab left of the block must be followed by
nothing. -/
def plainGapUpTo (m : Mark) (indent : Int) : List Char → Cursor → Except ScanError Cursor
  | [], c => .ok c
  | _ :: more, c =>
    let d := c.peek
    if isBlank d then
      if c.leading && c.column < indent && d = '\t' then do
        let c ← c.skipToLineEnd .plainTab (some m)
        plainGapUpTo m indent more c
      else plainGapUpTo m indent more (c.blanks 1)
    else if isBreak d then plainGapUpTo m indent more c.newline
    else .ok c

/-- Reads a plain scalar in rounds of a word and a gap. -/
def plainUpTo (m : Mark) (inFlow : Bool) (indent : Int) :
    List Char → Cursor → Except ScanError Cursor
  | [], c => .ok c
  | _ :: more, c => do
    if c.atDocumentMarker || c.peek = '#' then .ok c
    else if inFlow && c.peek = '-' && isFlowIndicator (c.peek 1) then c.fail .plainDash
    else
      let c := c.plainWord inFlow
      if !(isBlank c.peek || isBreak c.peek) then .ok c
      else
        let c ← plainGapUpTo m indent c.rest c
        if !inFlow && c.column < indent then .ok c else plainUpTo m inFlow indent more c

/-- Reads a plain scalar whose lines must not start left of `indent`. -/
def plain (inFlow : Bool) (indent : Int) (c : Cursor) : Except ScanError Cursor :=
  if inFlow && c.column < indent then .error ⟨.plainFlowIndentation, c.mark⟩
  else plainUpTo c.mark inFlow indent (nul :: c.rest) c

/-! ### Block scalars -/

/-- Reads the digit that gives the indentation of a block scalar. -/
def blockDigit (m : Mark) (c : Cursor) : Except ScanError (Nat × Cursor) :=
  if !c.peek.isDigit then .ok (0, c)
  else if c.peek = '0' then .error ⟨.blockIndentationZero, m⟩
  else .ok (hexDigit c.peek, c.skip 1)

/-- Reads what follows the bar or the angle bracket on its line: a sign and a digit in either
order.  Gives the digit, or zero. -/
def blockHeader (m : Mark) (c : Cursor) : Except ScanError (Nat × Cursor) := do
  let isSign (d : Char) : Bool := d = '+' || d = '-'
  let (n, c) ←
    if isSign c.peek then blockDigit m (c.skip 1)
    else do
      let (n, c) ← blockDigit m c
      .ok (n, if n ≠ 0 && isSign c.peek then c.skip 1 else c)
  let c ← c.skipToLineEnd .blockHeaderNotEnded (some m)
  let c := (c.fetch 2).newline.fetch 1
  if c.peek = '\t' then .error ⟨.blockStartsWithTab, m⟩ else .ok (n, c)

/-- Reads at most as many spaces as lead to the column `indent`. -/
def spacesTo (indent : Nat) (limit : Nat) (c : Cursor) : Cursor :=
  c.blanks (min limit (min (indent - c.column) (c.rest.takeWhile (· = ' ')).length))

/-- Reads the spaces up to a column in portions of sixteen characters. -/
def deepIndentUpTo (indent : Nat) : List Char → Cursor → Cursor
  | [], c => c
  | _ :: more, c =>
    let c := c.fetch 16
    let c := c.spacesTo indent c.lookahead
    if c.column = indent || (0 < c.lookahead && c.peek ≠ ' ') then c
    else deepIndentUpTo indent more c

/-- Reads the indentation of one line. -/
def lineIndent (indent : Nat) (c : Cursor) : Cursor :=
  if indent < 14 then
    (c.fetch 16).spacesTo indent indent
  else (deepIndentUpTo indent (nul :: c.rest) c).fetch 2

/-- Reads empty lines and the indentation of the line after them. -/
def blockIndentUpTo (indent : Nat) : List Char → Cursor → Cursor
  | [], c => c
  | _ :: more, c =>
    let c := c.lineIndent indent
    if isBreak c.peek then blockIndentUpTo indent more c.newline else c

/-- Reads empty lines and the indentation of the line after them. -/
def blockIndent (indent : Nat) (c : Cursor) : Cursor :=
  blockIndentUpTo indent (nul :: c.rest) c

/-- Reads empty lines and the indentation of the first line with content.  Gives the deepest
indentation among them. -/
def detectIndentUpTo : List Char → Nat → Cursor → Nat × Cursor
  | [], deepest, c => (deepest, c)
  | _ :: more, deepest, c =>
    let c := (c.blanks (c.rest.takeWhile (· = ' ')).length).fetch 1
    let deepest := max deepest c.column
    if isBreak c.peek then detectIndentUpTo more deepest (c.fetch 2).newline else (deepest, c)

/-- Reads the lines of a block scalar as long as they start at `indent`. -/
def blockLinesUpTo (indent : Nat) : List Char → Cursor → Cursor
  | [], c => c
  | _ :: more, c =>
    if c.column = indent && !c.atEnd then
      let c := if indent = 0 then c.fetch 4 else c
      if indent = 0 && c.atMarker ['.'] then c
      else
        let c := c.skipLine
        if c.atEnd then c else blockLinesUpTo indent more ((c.fetch 2).newline.blockIndent indent)
    else c

/-- Reads a block scalar from its indicator on, in a block at column `outer`.  Gives the mark of the
token: where the content starts, or the indicator if there is none. -/
def block (outer : Int) (c : Cursor) : Except ScanError (Mark × Cursor) := do
  let m := c.mark
  let (n, c) ← blockHeader m (c.skip 1)
  let given : Nat := if n = 0 then 0 else (if 0 ≤ outer then outer + n else n).toNat
  let (indent, c) :=
    if given = 0 then
      let (deepest, c) := detectIndentUpTo (nul :: c.rest) 0 c
      (max deepest (outer + 1).toNat, c)
    else (given, c.blockIndent given)
  if c.atEnd then .ok (m, c)
  else if c.column < indent && outer < c.column then c.fail .blockLineIndentation
  else .ok (c.mark, blockLinesUpTo indent (nul :: c.rest) c)

end Cursor

end DocMark.Yaml
