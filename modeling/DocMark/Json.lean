import DocMark.Decimal

/-!
# JSON values and their texts

Objects keep their keys in the order in which they are written.  The text of a value is compact, or
laid out over lines with two blanks for each level.

In a string the quote, the backslash and the controls are escaped, and nothing else.
-/

namespace DocMark

inductive Json where
  | null
  | bool (b : Bool)
  /-- A whole number of 64 bits, with or without a sign. -/
  | integer (n : Int)
  | float (x : Float)
  | string (s : String)
  | array (items : List Json)
  | object (fields : List (String × Json))
  deriving Inhabited

namespace Json

/-- A hexadecimal digit in lower case. -/
def hexDigit (n : Nat) : Char := if n < 10 then Char.ofNat (48 + n) else Char.ofNat (87 + n)

/-- One character of a string. -/
def escape (c : Char) : List Char :=
  if c = '"' then ['\\', '"']
  else if c = '\\' then ['\\', '\\']
  else if c = '\x08' then ['\\', 'b']
  else if c = '\x0c' then ['\\', 'f']
  else if c = '\n' then ['\\', 'n']
  else if c = '\r' then ['\\', 'r']
  else if c = '\t' then ['\\', 't']
  else if c.toNat < 0x20 then
    ['\\', 'u', '0', '0', hexDigit (c.toNat / 16), hexDigit (c.toNat % 16)]
  else [c]

/-- A string between its quotes. -/
def quote (s : String) : List Char := '"' :: (s.toList.flatMap escape ++ ['"'])

/-- A number without fraction. -/
def integerText (n : Int) : List Char :=
  if n < 0 then '-' :: Nat.toDigits 10 n.natAbs else Nat.toDigits 10 n.natAbs

mutual

/-- The text without any white space. -/
def compact : Json → List Char
  | null => "null".toList
  | bool b => (if b then "true" else "false").toList
  | integer n => integerText n
  | float x => (Decimal.ofFloat x).toList
  | string s => quote s
  | array items => '[' :: ([','].intercalate (compactItems items) ++ [']'])
  | object fields => '\x7b' :: ([','].intercalate (compactFields fields) ++ ['\x7d'])

def compactItems : List Json → List (List Char)
  | [] => []
  | j :: js => compact j :: compactItems js

def compactFields : List (String × Json) → List (List Char)
  | [] => []
  | (key, j) :: rest => (quote key ++ ':' :: compact j) :: compactFields rest

end

/-- A new line with blanks for its level. -/
def newline (level : Nat) : List Char := '\n' :: List.replicate (2 * level) ' '

/-- Parts on lines of their own between brackets; without parts the brackets touch. -/
def laidOut (opening closing : Char) (level : Nat) (parts : List (List Char)) : List Char :=
  if parts.isEmpty then [opening, closing]
  else
    opening :: ([','].intercalate (parts.map (newline (level + 1) ++ ·))
      ++ newline level ++ [closing])

mutual

/-- The text over several lines, as a part that begins at this level. -/
def prettyAt (level : Nat) : Json → List Char
  | null => "null".toList
  | bool b => (if b then "true" else "false").toList
  | integer n => integerText n
  | float x => (Decimal.ofFloat x).toList
  | string s => quote s
  | array items => laidOut '[' ']' level (prettyItems (level + 1) items)
  | object fields => laidOut '\x7b' '\x7d' level (prettyFields (level + 1) fields)

def prettyItems (level : Nat) : List Json → List (List Char)
  | [] => []
  | j :: js => prettyAt level j :: prettyItems level js

def prettyFields (level : Nat) : List (String × Json) → List (List Char)
  | [] => []
  | (key, j) :: rest =>
    (quote key ++ ':' :: ' ' :: prettyAt level j) :: prettyFields level rest

end

/-- The text over several lines. -/
def pretty (j : Json) : List Char := prettyAt 0 j

end Json

end DocMark
