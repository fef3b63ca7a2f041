import DocMark.Toml.Text

/-!
# Numbers, truth values, dates and times

All of them are words without quotes.  `Word.value?` tells what a word means: the grammars of
numbers, dates and times have no word in common, so the order of the attempts does not matter.

A date and a time of day may be separated by a space; then they are two words (`scalar`).
-/

namespace DocMark.Toml

open DocMark.Toml.Parser

namespace Word

/-- Digits with single underscores between them, without the underscores. -/
def digits? (isDigit : Char → Bool) : List Char → Option (List Char)
  | [] => none
  | [c] => if isDigit c then some [c] else none
  | c :: '_' :: rest => if isDigit c then (digits? isDigit rest).map (c :: ·) else none
  | c :: rest => if isDigit c then (digits? isDigit rest).map (c :: ·) else none

/-- The value of digits to a base. -/
def ofDigits (base : Nat) (digits : List Char) : Nat :=
  digits.foldl (fun n c => base * n + (codePoint?.hexDigit c).getD 0) 0

/-- The decimal digits of a number that does not start with a needless zero. -/
def plainDigits? (word : List Char) : Option (List Char) :=
  match word with
  | '0' :: _ :: _ => none
  | _ => digits? Char.isDigit word

/-- A sign and what it stands before. -/
def sign (word : List Char) : Bool × List Char :=
  match word with
  | '-' :: rest => (true, rest)
  | '+' :: rest => (false, rest)
  | _ => (false, word)

/-- A whole number, in base ten with a sign or in one of three other bases without. -/
def integer? (word : List Char) : Option Int :=
  match word with
  | '0' :: 'x' :: rest => (digits? isHexDigit rest).map fun ds => (ofDigits 16 ds : Int)
  | '0' :: 'o' :: rest =>
    (digits? (fun c => '0' ≤ c && c ≤ '7') rest).map fun ds => (ofDigits 8 ds : Int)
  | '0' :: 'b' :: rest =>
    (digits? (fun c => c = '0' || c = '1') rest).map fun ds => (ofDigits 2 ds : Int)
  | _ =>
    let (negative, rest) := sign word
    (plainDigits? rest).map fun ds =>
      let n : Int := ofDigits 10 ds
      if negative then -n else n

/-- What stands before and after the first character with the property `p`, if there is one. -/
def splitAt (p : Char → Bool) (word : List Char) : List Char × Option (List Char) :=
  (word.takeWhile (!p ·), match word.dropWhile (!p ·) with
    | [] => none
    | _ :: rest => some rest)

/-- The digits of an exponent and whether it is negative; without an exponent it is zero. -/
def exponent? : Option (List Char) → Option Int
  | none => some 0
  | some word =>
    let (negative, rest) := sign word
    (digits? Char.isDigit rest).map fun ds =>
      let n : Int := ofDigits 10 ds
      if negative then -n else n

/-- The digits behind the point; without a point there are none. -/
def fraction? : Option (List Char) → Option (List Char)
  | none => some []
  | some word => digits? Char.isDigit word

/-- The size of a number with a fraction, an exponent or both. -/
def magnitude? (word : List Char) : Option Float := do
  let (mantissa, power) := splitAt (fun c => c = 'e' || c = 'E') word
  let (whole, fraction) := splitAt (· = '.') mantissa
  if power.isNone && fraction.isNone then none
  else
    let whole ← plainDigits? whole
    let places ← fraction? fraction
    let exponent ← exponent? power
    return Decimal.toFloat (ofDigits 10 (whole ++ places)) (exponent - places.length)

/-- A floating point number.  A number too large for its kind is refused, unless it is negative. -/
def float? (word : List Char) : Option Float :=
  let (negative, rest) := sign word
  let infinite : Float := 1.0 / 0.0
  if rest = "inf".toList then some (if negative then -infinite else infinite)
  else if rest = "nan".toList then some (0.0 / 0.0)
  else
    match magnitude? rest with
    | none => none
    | some x => if negative then some (-x) else if x.isInf then none else some x

/-! ### Dates and times -/

/-- The number that exactly `n` digits denote, if it lies between two bounds. -/
def field? (n low high : Nat) (word : List Char) : Option (Nat × List Char) :=
  let ds := word.take n
  let value := ofDigits 10 ds
  if ds.length = n && ds.all Char.isDigit && low ≤ value && value ≤ high then
    some (value, word.drop n)
  else none

def isLeapYear (year : Nat) : Bool := year % 4 = 0 && (year % 100 ≠ 0 || year % 400 = 0)

def daysIn (year month : Nat) : Nat :=
  if month = 2 then (if isLeapYear year then 29 else 28)
  else if month = 4 || month = 6 || month = 9 || month = 11 then 30
  else 31

/-- What follows this character. -/
def after? (c : Char) : List Char → Option (List Char)
  | d :: rest => if d = c then some rest else none
  | [] => none

/-- What follows a date. -/
def afterDate? (word : List Char) : Option (List Char) := do
  let (year, rest) ← field? 4 0 9999 word
  let rest ← after? '-' rest
  let (month, rest) ← field? 2 1 12 rest
  let rest ← after? '-' rest
  let (_, rest) ← field? 2 1 (daysIn year month) rest
  return rest

/-- What follows the hours and minutes of a day. -/
def afterMinutes? (word : List Char) : Option (List Char) := do
  let (_, rest) ← field? 2 0 23 word
  let rest ← after? ':' rest
  let (_, rest) ← field? 2 0 59 rest
  return rest

/-- What follows a time of day.  The last minute may have a leap second. -/
def afterTime? (word : List Char) : Option (List Char) := do
  let rest ← afterMinutes? word
  let rest ← after? ':' rest
  let (_, rest) ← field? 2 0 60 rest
  match rest with
  | '.' :: more =>
    if more.head?.any Char.isDigit then some (more.dropWhile Char.isDigit) else none
  | _ => some rest

/-- The difference of a clock from universal time. -/
def isOffset : List Char → Bool
  | ['Z'] | ['z'] => true
  | '+' :: rest | '-' :: rest => afterMinutes? rest = some []
  | _ => false

/-- A date, a time, or both, then also with an offset. -/
def isDateTime (word : List Char) : Bool :=
  afterTime? word = some [] ||
    match afterDate? word with
    | some [] => true
    | some (c :: rest) =>
      (c = 'T' || c = 't' || c = ' ') &&
        match afterTime? rest with
        | some [] => true
        | some offset => isOffset offset
        | none => false
    | none => false

/-- A date or time stands for a table with a single entry that no record has. -/
def dateTimeValue (span : Span) (word : List Char) : Value :=
  .table [⟨⟨span, "$__toml_private_datetime"⟩, ⟨span, .string (String.ofList word)⟩⟩]

/-- What a word means. -/
def value? (word : Located (List Char)) : Option Value :=
  if word.value = "true".toList then some (.boolean true)
  else if word.value = "false".toList then some (.boolean false)
  else if isDateTime word.value then some (dateTimeValue word.span word.value)
  else
    match integer? word.value with
    | some n => if Reader.isWord n then some (.integer n) else none
    | none => (float? word.value).map .float

end Word

/-- May stand in a word without quotes. -/
def isWordChar (c : Char) : Bool :=
  c.isAlphanum || c = '_' || c = '+' || c = '-' || c = '.' || c = ':'

/-- A word; after a date, a space and a time of day belong to it. -/
def word : Parser (List Char) := do
  let first ← takeWhile isWordChar
  let ahead ← rest
  if Word.afterDate? first = some [] && ahead.head? = some ' '
      && (Word.afterMinutes? (ahead.drop 1)).isSome then
    char ' '
    let time ← takeWhile isWordChar
    return first ++ ' ' :: time
  else return first

/-- A value that is a single word. -/
def scalar : Parser Value := do
  match Word.value? (← located word) with
  | some v => return v
  | none => refuse

end DocMark.Toml
