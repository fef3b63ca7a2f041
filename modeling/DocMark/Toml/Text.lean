import DocMark.Toml.Source

/-!
# Texts and keys of a configuration file

A text stands between double quotes, where a backslash escapes, or between single quotes, where it
means itself.  Three quotes open a text that may go over several lines; its first line break does
not count, and up to two quotes may stand inside or right before the closing three.

A key is a bare word or a text in single quotes of either kind; dots join keys to a path.
-/

namespace DocMark.Toml

open DocMark.Toml.Parser

/-- A scalar value by its code point. -/
def codePoint? (digits : List Char) : Option Char :=
  let n := digits.foldl (fun n c => 16 * n + (hexDigit c).getD 0) 0
  if h : n.isValidChar then some (Char.ofNatAux n h) else none
where
  /-- The value of a hexadecimal digit. -/
  hexDigit (c : Char) : Option Nat :=
    if c.isDigit then some (c.toNat - '0'.toNat)
    else if 'a' ≤ c && c ≤ 'f' then some (c.toNat - 'a'.toNat + 10)
    else if 'A' ≤ c && c ≤ 'F' then some (c.toNat - 'A'.toNat + 10)
    else none

def isHexDigit (c : Char) : Bool := (codePoint?.hexDigit c).isSome

/-- A code point of `n` hexadecimal digits. -/
def codePoint (n : Nat) : Parser Char := do
  let digits ← take n
  if digits.all isHexDigit then
    match codePoint? digits with
    | some c => return c
    | none => refuse
  else refuse

/-- What follows the backslash of an escape. -/
def escaped : Parser Char := do
  match ← satisfy fun _ => true with
  | 'b' => return '\x08'
  | 't' => return '\t'
  | 'n' => return '\n'
  | 'f' => return '\x0c'
  | 'r' => return '\r'
  | '"' => return '"'
  | '\\' => return '\\'
  | 'u' => codePoint 4
  | 'U' => codePoint 8
  | _ => refuse

/-- A character of a text between double quotes, or an escape. -/
def basicChar : Parser Char := do
  match ← peek with
  | some '\\' => do
    char '\\'
    escaped
  | _ => satisfy fun c => isVisible c && c ≠ '"'

/-- A text between double quotes on one line. -/
def basicText : Parser String := do
  char '"'
  let cs ← many basicChar
  char '"'
  return String.ofList cs

/-- A text between single quotes on one line. -/
def literalText : Parser String := do
  char '\''
  let cs ← takeWhile fun c => isVisible c && c ≠ '\''
  char '\''
  return String.ofList cs

/-- One or two quotes inside a text of several lines. -/
def innerQuotes (quote : Char) : Parser (List Char) := do
  let cs ← takeWhile (· = quote)
  if cs.isEmpty || 3 ≤ cs.length then refuse else return cs

/-- The closing quotes of a text of several lines, which may hold two more. -/
def closingQuotes (quote : Char) : Parser (List Char) := do
  let cs ← takeWhile (· = quote)
  if 3 ≤ cs.length && cs.length ≤ 5 then return cs.drop 3 else refuse

/-- The end of a line inside a text: always a line feed alone. -/
def innerNewline : Parser (List Char) := do
  newline
  return ['\n']

/-- A backslash at the end of a line takes away all blanks and line ends that follow. -/
def continuation : Parser (List Char) := do
  char '\\'
  blanks
  newline
  let _ ← many do
    match ← peek with
    | some c => if isBlank c then char c else newline
    | none => refuse
  return []

/-- A piece of a text of several lines between double quotes. -/
def basicPiece : Parser (List Char) := do
  match ← peek with
  | some '\\' =>
    match ← optional? continuation with
    | some piece => return piece
    | none => return [← basicChar]
  | some '\n' | some '\r' => innerNewline
  | some '"' => innerQuotes '"'
  | _ => return [← basicChar]

/-- A piece of a text of several lines between single quotes. -/
def literalPiece : Parser (List Char) := do
  match ← peek with
  | some '\n' | some '\r' => innerNewline
  | some '\'' => innerQuotes '\''
  | _ => return [← satisfy isVisible]

/-- A text of several lines. -/
def longText (quote : Char) (piece : Parser (List Char)) : Parser String := do
  exactly [quote, quote, quote]
  let _ ← optional? newline
  let pieces ← many piece
  let last ← closingQuotes quote
  return String.ofList (pieces.flatten ++ last)

/-- A text in any of the four forms. -/
def anyText : Parser String := do
  let ahead := (← rest).take 3
  if ahead = ['"', '"', '"'] then longText '"' basicPiece
  else if ahead = ['\'', '\'', '\''] then longText '\'' literalPiece
  else if ahead.head? = some '"' then basicText
  else literalText

/-! ### Keys -/

abbrev Key := Located String

def isBare (c : Char) : Bool := c.isAlphanum || c = '-' || c = '_'

def bareWord : Parser String := do
  let cs ← takeWhile isBare
  if cs.isEmpty then refuse else return String.ofList cs

def simpleKey : Parser String := do
  match ← peek with
  | some '"' => basicText
  | some '\'' => literalText
  | _ => bareWord

/-- A path may not be longer than this. -/
def longestPath : Nat := 79

/-- Keys with dots between them and blanks around them. -/
def keyPath : Parser (List Key) := do
  let path ← separated (do blanks; let k ← located simpleKey; blanks; return k) (char '.')
  if path.length ≤ longestPath then return path else refuse

end DocMark.Toml
