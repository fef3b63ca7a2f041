import DocMark.Token.Scalar
import DocMark.Token.Tag

/-!
# One step of the scanner

A step reads what the next character starts and queues the tokens that it makes known: usually one,
several where a collection opens before it or a single pair ends with it.  Which step is taken is
decided by the next character and the one after it (`Scanner.step`).
-/

namespace DocMark.Yaml.Scanner

/-- Lets the cursor do what may fail. -/
def moveBy (s : Scanner) (f : Cursor → Except ScanError Cursor) : Except ScanError Scanner := do
  let c ← f s.cursor
  .ok (s.move c)

/-- Reads blanks and a comment. -/
def skipBlanks (s : Scanner) : Except ScanError (Cursor.Blanks × Scanner) := do
  let (found, c) ← s.cursor.skipBlanks
  .ok (found, s.move c)

/-- Reads `n` characters of the current line. -/
def skip (s : Scanner) (n : Nat) : Scanner := s.move (s.cursor.skip n)

/-! ### Documents and directives -/

/-- Ends all blocks; no key can start or go on here. -/
def endBlocks (s : Scanner) : Except ScanError Scanner := do
  let s ← (s.closeBlocks (-1)).removeKey
  .ok { s with keyAllowed := false }

/-- A line of dashes or dots. -/
def document (s : Scanner) (kind : TokenKind) : Except ScanError Scanner := do
  let s ← s.endBlocks
  .ok ((s.skip 3).push kind s.mark)

/-- Three dots, after which nothing may follow on the line. -/
def documentEnd (s : Scanner) : Except ScanError Scanner := do
  let s ← s.document .documentEnd
  s.moveBy (·.skipToLineEnd .contentAfterDocumentEnd none)

def directive (s : Scanner) : Except ScanError Scanner := do
  let s ← s.endBlocks
  let m := s.mark
  let s ← s.moveBy Cursor.directive
  .ok (s.push .directive m)

/-! ### Tags and anchors -/

/-- A key may start here, and nothing can start after it until it is over. -/
def startNode (s : Scanner) : Scanner := { s.saveKey with keyAllowed := false }

def tag (s : Scanner) : Except ScanError Scanner := do
  let m := s.mark
  let s ← s.startNode.moveBy (·.tag s.inFlow)
  .ok (s.push .tag m)

/-- An anchor or an alias. -/
def anchor (s : Scanner) (kind : TokenKind) : Except ScanError Scanner := do
  let m := s.mark
  let s ← s.startNode.moveBy Cursor.anchor
  .ok (s.push kind m)

/-! ### Flow collections -/

/-- The greatest number of open brackets and braces. -/
def maxDepth : Nat := 255

/-- An opening bracket or brace. -/
def flowStart (s : Scanner) (kind : TokenKind) : Except ScanError Scanner := do
  let s := s.saveKey.indentHalf
  if s.depth = maxDepth then s.fail .tooDeep
  else
    let m := s.mark
    let s :=
      { s with
        outerKeys := s.key :: s.outerKeys
        key := {}
        keyAllowed := true
        inFlowMapping := s.inFlowMapping || kind == TokenKind.flowMappingStart }
    let (_, s) ← (s.skip 1).skipBlanks
    .ok (s.push kind m)

/-- Ends a mapping of a single pair. -/
def endSinglePair (s : Scanner) : Scanner :=
  if s.inSinglePair then
    { s with inSinglePair := false, inFlowMapping := false }.push .flowMappingEnd s.mark
  else s

/-- Back to the level of brackets around this one, if there is one. -/
def leaveFlow (s : Scanner) : Scanner :=
  match s.outerKeys with
  | k :: ks => { s with key := k, outerKeys := ks }
  | [] => s

/-- A closing bracket or brace. -/
def flowEnd (s : Scanner) (kind : TokenKind) : Except ScanError Scanner := do
  let s ← s.removeKey
  let s := { s.leaveFlow with keyAllowed := false }.endSinglePair
  let m := s.mark
  let (_, s) ← (s.skip 1).skipBlanks
  let s := if s.inFlow then { s with adjacent := s.cursor.index } else s
  .ok (s.push kind m)

/-- A comma. -/
def flowEntry (s : Scanner) : Except ScanError Scanner := do
  let s ← s.removeKey
  let s := { s with keyAllowed := true }.endSinglePair
  let m := s.mark
  let (_, s) ← (s.skip 1).skipBlanks
  .ok (s.push .flowEntry m)

/-! ### Block collections -/

/-- An anchor or a tag that stands at the start of a line, and so does what comes now. -/
def strayProperty? (s : Scanner) : Option Scanned :=
  s.lastPending?.filter fun t =>
    (t.kind = .anchor || t.kind = .tag) && s.column = 0 && t.mark.column = 0 && -1 < s.indent

/-- A dash.  Its token gets the mark of what follows the dash on its line. -/
def blockEntry (s : Scanner) : Except ScanError Scanner := do
  if s.inFlow then s.fail .entryInsideFlow
  else if !s.keyAllowed then s.fail .entryNotAllowed
  else
    match s.strayProperty? with
    | some t => .error ⟨.anchorIndentation, t.mark⟩
    | none => do
      let m := s.mark
      let s := (s.skip 1).openBlock m.column none .blockSequenceStart m
      let (found, s) ← s.skipBlanks
      let c := s.cursor
      if found.tab && c.peek = '-' && isSeparator (c.peek 1) then s.fail .entryTab
      else
        let s := if isBreak c.peek || isFlowIndicator c.peek then s.indentHalf else s
        let s ← s.removeKey
        .ok ({ s with keyAllowed := true }.push .blockEntry s.mark)

/-- Reads spaces, line breaks and comments after a question mark, in at most as many steps as the
text has characters.  Says whether there were any spaces or line breaks. -/
def keyGapUpTo : List Char → Bool → Scanner → Bool × Scanner
  | [], found, s => (found, s)
  | _ :: more, found, s =>
    let d := s.cursor.peek
    if d = ' ' then keyGapUpTo more true (s.move (s.cursor.blanks 1))
    else if isBreak d then
      keyGapUpTo more true
        { s with cursor := s.cursor.newline, keyAllowed := s.keyAllowed || !s.inFlow }
    else if d = '#' then keyGapUpTo more found (s.move (s.cursor.skipWhile (!isBreakOrEnd ·)))
    else (found, s)

/-- A question mark. -/
def explicitKey (s : Scanner) : Except ScanError Scanner := do
  let m := s.mark
  let s ←
    if s.inFlow then .ok { s with inFlowMapping := true }
    else if !s.keyAllowed then s.fail .keyNotAllowed
    else .ok (s.openBlock m.column none .blockMappingStart m)
  let s ← s.removeKey
  let s := { s with keyAllowed := !s.inFlow }.skip 1
  let (found, s) := keyGapUpTo s.cursor.rest false s
  if !found then s.fail .keyNotSeparated
  else if s.cursor.peek = '\t' then s.fail .tabAfterKey
  else .ok (s.push .key m)

/-- Reads a tab after a colon: the word after it must be separated by a space, too. -/
def valueTab (s : Scanner) : Except ScanError Scanner := do
  if s.cursor.peek = '\t' then
    let (found, s) ← s.skipBlanks
    if !found.space && (s.cursor.peek = '-' || isWordChar s.cursor.peek) then s.fail .valueTab
    else .ok s
  else .ok s

/-- Makes a key of a candidate: inserts the tokens that belong before it. -/
def insertKey (s : Scanner) (k : Candidate) (m : Mark) : Except ScanError Scanner := do
  let keyed := s.insertAt k.number .key k.mark
  let s ←
    if !s.inSinglePair then .ok keyed
    else if k.mark.line < m.line then .error ⟨.valuePlacement, m⟩
    else .ok (keyed.insertAt k.number .flowMappingStart s.mark)
  let s := (s.openBlock k.mark.column (some k.number) .blockMappingStart m).indentHalf
  .ok { s with key := { s.key with possible := false }, keyAllowed := false }

/-- A value without a simple key before it. -/
def valueAlone (s : Scanner) (m : Mark) : Except ScanError Scanner := do
  let s := if s.inSinglePair then s.push .flowMappingStart s.mark else s
  let s ←
    if s.inFlow then .ok s
    else if !s.keyAllowed then .error ⟨.valueNotAllowed, m⟩
    else .ok (s.openBlock m.column none .blockMappingStart m)
  let s := s.indentHalf
  .ok { s with keyAllowed := !s.inFlow }

/-- A colon.  In a flow sequence it opens a mapping of a single pair. -/
def value (s : Scanner) : Except ScanError Scanner := do
  let k := s.key
  let m := s.mark
  let s := { s with inSinglePair := s.inFlow && !s.inFlowMapping }
  let s ← (s.skip 1).valueTab
  let s ← if k.possible then s.insertKey k m else s.valueAlone m
  .ok (s.push .value m)

/-! ### Scalars -/

/-- A block scalar. -/
def blockScalar (s : Scanner) : Except ScanError Scanner := do
  let s := { s.saveKey with keyAllowed := true }.leaveHalfIndents
  let (m, c) ← s.cursor.block s.indent
  .ok ((s.move c).push .scalar m)

/-- What may follow a quoted text that started on line `line`. -/
def mayFollowQuoted (s : Scanner) (line : Nat) : Bool :=
  let d := s.cursor.peek
  ((d = ',' || d = '\x7d' || d = ']') && s.inFlow) || isBreakOrEnd d
    || (d = ':' && (s.inFlow || line = s.cursor.line))

/-- A quoted scalar. -/
def quotedScalar (s : Scanner) (q : Cursor.Quote) : Except ScanError Scanner := do
  let m := s.mark
  let s ← s.startNode.moveBy (·.quoted q s.indent)
  if !s.mayFollowQuoted m.line then s.fail .quotedTrailing
  else
    let s ← s.skipToToken
    .ok ({ s with adjacent := s.cursor.index }.push .scalar m)

/-- A plain scalar. -/
def plainScalar (s : Scanner) : Except ScanError Scanner := do
  let m := s.mark
  let s := s.startNode.leaveHalfIndents
  let s ← s.moveBy (·.plain s.inFlow (s.indent + 1))
  .ok ({ s with keyAllowed := s.keyAllowed || s.cursor.leading }.push .scalar m)

/-! ### The choice of the step -/

/-- The colon here starts a value. -/
def startsValue (s : Scanner) : Bool :=
  let d := s.cursor.peek 1
  isSeparator d || (s.inFlow && (isFlowIndicator d || s.cursor.index = s.adjacent))

/-- Reads what starts with the character `d`, which comes next. -/
def step (s : Scanner) (d : Char) : Except ScanError Scanner :=
  if s.column = 0 && d = '%' then s.directive
  else if s.column = 0 && s.cursor.atMarker ['-'] then s.document .documentStart
  else if s.column = 0 && s.cursor.atMarker ['.'] then s.documentEnd
  else if s.column < s.indent then s.fail .badIndentation
  else if d = '[' then s.flowStart .flowSequenceStart
  else if d = '\x7b' then s.flowStart .flowMappingStart
  else if d = ']' then s.flowEnd .flowSequenceEnd
  else if d = '\x7d' then s.flowEnd .flowMappingEnd
  else if d = ',' then s.flowEntry
  else if d = '-' && isSeparator (s.cursor.peek 1) then s.blockEntry
  else if d = '?' && isSeparator (s.cursor.peek 1) then s.explicitKey
  else if d = ':' && s.startsValue then s.value
  else if d = '*' then s.anchor .alias
  else if d = '&' then s.anchor .anchor
  else if d = '!' then s.tag
  else if (d = '|' || d = '>') && !s.inFlow then s.blockScalar
  else if d = '\'' then s.quotedScalar .single
  else if d = '"' then s.quotedScalar .double
  else if d = '%' || d = '@' || d = '\x60' then s.fail (.unexpectedCharacter d)
  else s.plainScalar

/-! ### The whole text -/

/-- Before the first character. -/
def ofText (text : List Char) : Scanner :=
  ({ cursor := Cursor.ofText text } : Scanner).push .streamStart {}

/-- Reads up to the next token and closes the blocks that it lies left of. -/
def prepare (s : Scanner) : Except ScanError Scanner := do
  let s ← s.skipToToken
  let s ← s.dropStaleKey
  let s := s.closeBlocks s.column
  .ok (s.move (s.cursor.fetch 4))

/-- The mark of the end: the start of a line, the next one if this is not empty. -/
def endMark (s : Scanner) : Mark :=
  let m := s.mark
  if m.column = 0 then m else ⟨m.index, m.line + 1, 0⟩

/-- A key that must come can no longer come. -/
def awaitsKey (s : Scanner) : Bool := s.keys.any fun k => k.possible && k.required

/-- Ends the stream and gives all tokens. -/
def endStream (s : Scanner) : Except ScanError (List Scanned) :=
  let m := s.endMark
  let s := s.move { s.cursor with mark := m }
  if s.awaitsKey then s.fail .keyExpected
  else .ok ((s.closeBlocks (-1)).push .streamEnd m).tokens

/-- Takes at most as many steps as the text has characters, then ends the stream. -/
def run : List Char → Scanner → Except ScanError (List Scanned)
  | [], s => do
    let s ← s.prepare
    s.endStream
  | _ :: more, s => do
    let s ← s.prepare
    match s.cursor.rest with
    | [] => s.endStream
    | d :: _ =>
      let s ← s.step d
      let s ← s.handOut
      run more s

end Scanner

/-- The tokens of a text, with the marks of the scanner.  Every step reads a character, so there are
no more steps than characters. -/
def scan (text : List Char) : Except ScanError (List Scanned) :=
  let s := Scanner.ofText text
  s.run s.cursor.rest

end DocMark.Yaml
