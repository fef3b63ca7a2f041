import DocMark.Token.Cursor

/-!
# Tags and directives

The functions here read what stands after an exclamation or a percent sign.  Their values do not
matter to any rule, so only the cursor comes back; every fault is raised at the mark `m` where the
tag or the directive starts, but for the name of a directive.
-/

namespace DocMark.Yaml.Cursor

/-- Raises a fault at a mark that lies behind. -/
def failAt {α : Type} (m : Mark) (f : Fault) : Except ScanError α := .error ⟨f, m⟩

/-! ### Escaped octets -/

/-- Reads an octet that is written as a percent sign and two digits. -/
def octet (m : Mark) (c : Cursor) : Except ScanError (Nat × Cursor) :=
  if c.peek = '%' && isHexDigit (c.peek 1) && isHexDigit (c.peek 2) then
    .ok (hexValue [c.peek 1, c.peek 2], c.skip 3)
  else failAt m .escapedOctetMissing

/-- How many octets follow the leading octet of a character in UTF-8. -/
def continuations? (octet : Nat) : Option Nat :=
  if octet < 0x80 then some 0
  else if octet / 0x20 = 0x06 then some 1
  else if octet / 0x10 = 0x0E then some 2
  else if octet / 0x08 = 0x1E then some 3
  else none

/-- Reads `n` further octets after those whose number is `code`. -/
def trailingOctets (m : Mark) : Nat → Nat → Cursor → Except ScanError (Nat × Cursor)
  | 0, code, c => .ok (code, c)
  | n + 1, code, c => do
    let (o, c) ← octet m c
    if o / 0x40 = 0x02 then trailingOctets m n (code * 0x100 + o) c
    else failAt m .trailingOctet

/-- Reads one escaped character.  Its octets, one after the other, must not make a number beyond
those of characters. -/
def escapedChar (m : Mark) (c : Cursor) : Except ScanError Cursor := do
  let (o, c) ← octet m c
  match continuations? o with
  | none => failAt m .leadingOctet
  | some n => do
    let (code, c) ← trailingOctets m n o c
    if isNoScalarValue code then failAt m .octetsOfNoCharacter else .ok c

/-- Reads the characters of an address that satisfy `p`, in at most as many steps as the first text
has characters. -/
def uriUpTo (m : Mark) (p : Char → Bool) : List Char → Cursor → Except ScanError Cursor
  | [], c => .ok c
  | _ :: more, c =>
    if p c.peek then do
      let c ← if c.peek = '%' then escapedChar m c else .ok (c.skip 1)
      uriUpTo m p more c
    else .ok c

/-- Reads the characters of an address that satisfy `p`.  Every step reads a character. -/
def uri (m : Mark) (p : Char → Bool) (c : Cursor) : Except ScanError Cursor :=
  uriUpTo m p c.rest c

/-! ### Tags -/

/-- Reads a tag handle: an exclamation mark, and a word and another mark if they are there.  Says
whether a second mark closes it. -/
def tagHandle (m : Mark) (inDirective : Bool) (c : Cursor) : Except ScanError (Bool × Cursor) :=
  if c.peek ≠ '!' then failAt m .tagWithoutMark
  else
    let named := (c.skip 1).skipWhile isWordChar
    let hasName := isWordChar (c.peek 1)
    if named.peek = '!' then .ok (true, named.skip 1)
    else if inDirective && hasName then failAt m .tagHandleNotClosed
    else .ok (false, named)

/-- Reads what a tag directive puts in place of a handle. -/
def tagReplacement (m : Mark) (c : Cursor) : Except ScanError Cursor := do
  let c ←
    if c.peek = '!' then .ok (c.skip 1)
    else if !isTagChar c.peek then failAt m .tagPrefixCharacter
    else if c.peek = '%' then escapedChar m c
    else .ok (c.skip 1)
  uri m isUriChar c

/-- Reads a tag in angle brackets. -/
def verbatimTag (m : Mark) (c : Cursor) : Except ScanError Cursor := do
  let c ← uri m isUriChar (c.skip 2)
  if c.peek = '>' then .ok (c.skip 1) else failAt m .verbatimTagNotClosed

/-- Reads a tag that may start with a handle. -/
def shortTag (m : Mark) (c : Cursor) : Except ScanError Cursor := do
  let (closed, named) ← tagHandle m false c
  let c ← uri m isTagChar named
  if closed && c.index = named.index then failAt m .tagWithoutUri else .ok c

/-- Reads a tag and demands the end of a word after it; inside brackets an indicator will do. -/
def tag (inFlow : Bool) (c : Cursor) : Except ScanError Cursor := do
  let m := c.mark
  let c ← if c.peek 1 = '<' then verbatimTag m c else shortTag m c
  if isSeparator c.peek || (inFlow && isFlowIndicator c.peek) then .ok c
  else failAt m .tagNotSeparated

/-! ### Directives -/

/-- Reads one part of a version. -/
def versionNumber (m : Mark) (c : Cursor) : Except ScanError Cursor :=
  match (c.rest.takeWhile Char.isDigit).length with
  | 0 => failAt m .versionMissing
  | n => if 9 < n then failAt m .versionTooLong else .ok (c.skip n)

/-- Reads the blanks between the parts of a directive. -/
def gap (c : Cursor) : Cursor := c.blanks (c.rest.takeWhile isBlank).length

/-- Reads what follows the word `YAML`. -/
def versionDirective (m : Mark) (c : Cursor) : Except ScanError Cursor := do
  let c ← versionNumber m c.gap
  if c.peek = '.' then versionNumber m (c.skip 1) else failAt m .versionWithoutDot

/-- Reads what follows the word `TAG`. -/
def tagDirective (m : Mark) (c : Cursor) : Except ScanError Cursor := do
  let (_, c) ← tagHandle m true c.gap
  let c ← tagReplacement m c.gap
  if isSeparator c.peek then .ok c else failAt m .tagDirectiveNotSeparated

/-- Reads a directive with the line break after it. -/
def directive (c : Cursor) : Except ScanError Cursor := do
  let m := c.mark
  let start := c.skip 1
  let name := start.rest.takeWhile isWordChar
  let c := start.skip name.length
  if name.isEmpty then start.fail .directiveWithoutName
  else if !isSeparator c.peek then start.fail .directiveNameNotAlphabetic
  else
    let c ←
      if name = "YAML".toList then versionDirective m c
      else if name = "TAG".toList then tagDirective m c
      else .ok (c.skipWhile (!isBreakOrEnd ·))
    let c ← c.skipToLineEnd .directiveNotEnded (some m)
    .ok c.newline

/-! ### Anchors -/

/-- Reads an anchor or an alias. -/
def anchor (c : Cursor) : Except ScanError Cursor :=
  let name := (c.skip 1).rest.takeWhile isAnchorChar
  if name.isEmpty then failAt c.mark .anchorWithoutName else .ok (c.skip (name.length + 1))

end DocMark.Yaml.Cursor
