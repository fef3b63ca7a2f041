/-!
# Classes of characters in YAML

The end of the text counts as the character NUL, so the classes that end a line or a word contain
it.
-/

namespace DocMark.Yaml

/-- What stands after the last character. -/
def nul : Char := '\x00'

/-- A space or a tab. -/
def isBlank (c : Char) : Bool := c = ' ' || c = '\t'

/-- A line feed or a carriage return. -/
def isBreak (c : Char) : Bool := c = '\n' || c = '\r'

/-- The end of a line or of the text. -/
def isBreakOrEnd (c : Char) : Bool := isBreak c || c = nul

/-- The end of a word, a line or the text. -/
def isSeparator (c : Char) : Bool := isBlank c || isBreakOrEnd c

/-- A character that has a meaning of its own inside brackets and braces. -/
def isFlowIndicator (c : Char) : Bool :=
  c = ',' || c = '[' || c = ']' || c = '\x7b' || c = '\x7d'

/-- A character of a directive's name or of a tag handle. -/
def isWordChar (c : Char) : Bool := c.isAlphanum || c = '_' || c = '-'

def isHexDigit (c : Char) : Bool :=
  c.isDigit || ('a' ≤ c && c ≤ 'f') || ('A' ≤ c && c ≤ 'F')

/-- The value of a hexadecimal digit. -/
def hexDigit (c : Char) : Nat :=
  if c.isDigit then c.toNat - '0'.toNat
  else if 'a' ≤ c && c ≤ 'f' then c.toNat - 'a'.toNat + 10
  else c.toNat - 'A'.toNat + 10

/-- The value of a run of hexadecimal digits. -/
def hexValue (cs : List Char) : Nat := cs.foldl (fun v c => 16 * v + hexDigit c) 0

/-- A character of a tag's address, a percent sign included. -/
def isUriChar (c : Char) : Bool :=
  c.isAlphanum || "-#;/?:@&=+$,_.!~*'()[]%".toList.contains c

/-- A character of a short tag. -/
def isTagChar (c : Char) : Bool := isUriChar c && !isFlowIndicator c && c ≠ '!'

/-- A character of the name of an anchor. -/
def isAnchorChar (c : Char) : Bool := !isSeparator c && c ≠ '\uFEFF' && !isFlowIndicator c

/-- What may follow a backslash between double quotes. -/
def isEscape (c : Char) : Bool := "0abt\tnvfre \"/\\N_LPxuU".toList.contains c

/-- How many hexadecimal digits an escape takes. -/
def escapeDigits (c : Char) : Nat :=
  if c = 'x' then 2 else if c = 'u' then 4 else if c = 'U' then 8 else 0

/-- Not the number of a character: too large, or half of a pair. -/
def isNoScalarValue (n : Nat) : Bool := 0x10FFFF < n || (0xD800 ≤ n && n ≤ 0xDFFF)

end DocMark.Yaml
