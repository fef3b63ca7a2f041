import DocMark.Json

/-!
# Reading JSON

`Json.parse` reads a text that is one value with white space around it.  Each reader takes its part
from the front of a text and answers with what it found and what is left.

Strings must not hold bare controls, and an escaped surrogate must be one of a pair.  Numbers are
whole if they have neither fraction nor exponent and fit into 64 bits; a number too large for any
kind is refused.  Brackets may be nested up to `Json.deepest`.
-/

namespace DocMark.Json

def isSpace (c : Char) : Bool := c = ' ' || c = '\n' || c = '\t' || c = '\r'

/-- Without the white space at its start. -/
def skip (s : List Char) : List Char := s.dropWhile isSpace

/-! ### Strings -/

/-- The value of a hexadecimal digit. -/
def hexValue? (c : Char) : Option Nat :=
  if '0' ≤ c && c ≤ '9' then some (c.toNat - 48)
  else if 'a' ≤ c && c ≤ 'f' then some (c.toNat - 87)
  else if 'A' ≤ c && c ≤ 'F' then some (c.toNat - 55)
  else none

/-- The value of four hexadecimal digits. -/
def hexValues? (a b c d : Char) : Option Nat := do
  let a ← hexValue? a
  let b ← hexValue? b
  let c ← hexValue? c
  let d ← hexValue? d
  return ((a * 16 + b) * 16 + c) * 16 + d

/-- The character of an escape with a single letter. -/
def escaped? (c : Char) : Option Char :=
  if c = '"' then some '"'
  else if c = '\\' then some '\\'
  else if c = '/' then some '/'
  else if c = 'b' then some '\x08'
  else if c = 'f' then some '\x0c'
  else if c = 'n' then some '\n'
  else if c = 'r' then some '\r'
  else if c = 't' then some '\t'
  else none

/-- Half of a character beyond the first plane. -/
def isSurrogate (n : Nat) : Bool := 0xD800 ≤ n && n ≤ 0xDFFF

/-- The character of two halves. -/
def paired? (high low : Nat) : Option Char :=
  if 0xD800 ≤ high && high ≤ 0xDBFF && 0xDC00 ≤ low && low ≤ 0xDFFF then
    some (Char.ofNat (0x10000 + (high - 0xD800) * 0x400 + (low - 0xDC00)))
  else none

/-- One more character before what a reader found. -/
def prepend (c : Char) (found : Option (List Char × List Char)) : Option (List Char × List Char) :=
  found.map fun (s, rest) => (c :: s, rest)

/-- The characters of a string up to its closing quote. -/
def stringBody : List Char → Option (List Char × List Char)
  | [] => none
  | '"' :: rest => some ([], rest)
  | '\\' :: 'u' :: a :: b :: c :: d :: rest =>
    match hexValues? a b c d with
    | none => none
    | some n =>
      if isSurrogate n then
        match rest with
        | '\\' :: 'u' :: e :: f :: g :: h :: rest =>
          match (hexValues? e f g h).bind (paired? n) with
          | none => none
          | some x => prepend x (stringBody rest)
        | _ => none
      else prepend (Char.ofNat n) (stringBody rest)
  | '\\' :: c :: rest =>
    match escaped? c with
    | none => none
    | some x => prepend x (stringBody rest)
  | c :: rest => if c = '\\' || c.toNat < 0x20 then none else prepend c (stringBody rest)

/-! ### Numbers -/

/-- The value of decimal digits. -/
def ofDigits (ds : List Char) : Nat := ds.foldl (fun n c => 10 * n + (c.toNat - 48)) 0

/-- At least one digit. -/
def digits (s : List Char) : Option (List Char × List Char) :=
  let ds := s.takeWhile Char.isDigit
  if ds.isEmpty then none else some (ds, s.dropWhile Char.isDigit)

/-- Digits without a needless zero. -/
def wholeDigits (s : List Char) : Option (List Char × List Char) :=
  match digits s with
  | some ('0' :: _ :: _, _) => none
  | found => found

/-- The digits behind a point, if there is one. -/
def fraction (s : List Char) : Option (Option (List Char) × List Char) :=
  match s with
  | '.' :: rest => (digits rest).map fun (ds, rest) => (some ds, rest)
  | _ => some (none, s)

/-- The exponent, if there is one. -/
def exponent (s : List Char) : Option (Option Int × List Char) :=
  let signed (rest : List Char) : Option (Option Int × List Char) :=
    match rest with
    | '-' :: rest => (digits rest).map fun (ds, rest) => (some (-(ofDigits ds : Int)), rest)
    | '+' :: rest => (digits rest).map fun (ds, rest) => (some (ofDigits ds : Int), rest)
    | _ => (digits rest).map fun (ds, rest) => (some (ofDigits ds : Int), rest)
  match s with
  | 'e' :: rest => signed rest
  | 'E' :: rest => signed rest
  | _ => some (none, s)

/-- The number with these digits.  A negative zero is not whole. -/
def numberOf (negative : Bool) (whole : List Char) (places : Option (List Char))
    (power : Option Int) : Option Json :=
  let n := ofDigits whole
  let size := Decimal.toFloat (ofDigits (whole ++ places.getD []))
    (power.getD 0 - (places.getD []).length)
  let float := if size.isInf then none else some (Json.float (if negative then -size else size))
  if places.isSome || power.isSome then float
  else if negative then (if 0 < n && n ≤ 1 <<< 63 then some (.integer (-(n : Int))) else float)
  else if n < 1 <<< 64 then some (.integer n) else float

/-- A number without its sign. -/
def unsigned (negative : Bool) (s : List Char) : Option (Json × List Char) := do
  let (whole, rest) ← wholeDigits s
  let (places, rest) ← fraction rest
  let (power, rest) ← exponent rest
  let j ← numberOf negative whole places power
  return (j, rest)

def number (s : List Char) : Option (Json × List Char) :=
  match s with
  | '-' :: rest => unsigned true rest
  | _ => unsigned false s

/-! ### Values -/

/-- A word that stands for a value. -/
def keyword (word : List Char) (j : Json) (s : List Char) : Option (Json × List Char) :=
  if word.isPrefixOf s then some (j, s.drop word.length) else none

/-- A value without brackets. -/
def scalar (s : List Char) : Option (Json × List Char) :=
  match s with
  | '"' :: rest => (stringBody rest).map fun (cs, rest) => (.string (String.ofList cs), rest)
  | 'n' :: _ => keyword "null".toList .null s
  | 't' :: _ => keyword "true".toList (.bool true) s
  | 'f' :: _ => keyword "false".toList (.bool false) s
  | _ => number s

/-- Parts with commas between them up to a closing bracket, at least one; `n` bounds their
number. -/
def parts {α : Type} (part : List Char → Option (α × List Char)) (closing : Char) :
    Nat → List Char → Option (List α × List Char)
  | 0, _ => none
  | n + 1, s =>
    match part s with
    | none => none
    | some (a, rest) =>
      match skip rest with
      | c :: rest =>
        if c = closing then some ([a], rest)
        else if c = ',' then (parts part closing n rest).map fun (as, rest) => (a :: as, rest)
        else none
      | [] => none

/-- Parts with commas between them up to a closing bracket. -/
def bracketed {α : Type} (part : List Char → Option (α × List Char)) (closing : Char)
    (s : List Char) : Option (List α × List Char) :=
  match skip s with
  | c :: rest => if c = closing then some ([], rest) else parts part closing s.length s
  | [] => none

/-- A key and its value. -/
def field (value : List Char → Option (Json × List Char)) (s : List Char) :
    Option ((String × Json) × List Char) :=
  match skip s with
  | '"' :: rest =>
    match stringBody rest with
    | none => none
    | some (key, rest) =>
      match skip rest with
      | ':' :: rest => (value rest).map fun (j, rest) => ((String.ofList key, j), rest)
      | _ => none
  | _ => none

/-- A value, with white space before it, and with at most `n` brackets around its innermost part. -/
def value : Nat → List Char → Option (Json × List Char)
  | 0, s => scalar (skip s)
  | n + 1, s =>
    match skip s with
    | '[' :: rest => (bracketed (value n) ']' rest).map fun (items, rest) => (.array items, rest)
    | '\x7b' :: rest =>
      (bracketed (field (value n)) '\x7d' rest).map fun (fields, rest) => (.object fields, rest)
    | s => scalar s

/-- Brackets may be nested so deep. -/
def deepest : Nat := 127

/-- The value that a text is. -/
def parse (s : List Char) : Option Json :=
  match value deepest s with
  | some (j, rest) => if (skip rest).isEmpty then some j else none
  | none => none

end DocMark.Json
