/-!
# The shortest decimal text of a binary fraction

A floating point number is written with the fewest digits that still denote it: of all decimals
that round to the number, those with the fewest digits are taken, and of these the nearest.  The
text is positional, without an exponent, and always has a point.

The work is done on natural numbers.  A positive finite number is `mantissa * 2 ^ exponent`, and the
decimals that round to it are those between the midpoints to its neighbours, the midpoints included
if the mantissa is even.  The decimals with a given number of digits form a grid; if any of them
lies in that interval, one of the two around the number itself does (`BinaryFraction.candidate?`).
-/

namespace DocMark

/-- The positive number `mantissa * 2 ^ (exponent - 1074)`.  The least exponent is zero, and all
greater ones have a mantissa of 53 bits. -/
structure BinaryFraction where
  mantissa : Nat
  exponent : Nat
  deriving DecidableEq, Repr

/-- The number `digits * 10 ^ up / 10 ^ down`; one of `up` and `down` is zero. -/
structure Decimal where
  digits : Nat
  up : Nat
  down : Nat
  deriving DecidableEq, Repr

/-- One with so many zeros. -/
def powerOfTen (n : Nat) : Nat := Nat.pow 10 n

namespace BinaryFraction

/-- The common denominator of the number and of the two midpoints around it. -/
def denominator : Nat := 1 <<< 1076

/-- The numerator over `denominator`. -/
def numerator (b : BinaryFraction) : Nat := (4 * b.mantissa) <<< b.exponent

/-- The midpoint to the next smaller number, which is nearer if the mantissa is the least of its
exponent. -/
def lower (b : BinaryFraction) : Nat :=
  if b.mantissa = 1 <<< 52 && 0 < b.exponent then (4 * b.mantissa - 1) <<< b.exponent
  else (4 * b.mantissa - 2) <<< b.exponent

/-- The midpoint to the next greater number. -/
def upper (b : BinaryFraction) : Nat := (4 * b.mantissa + 2) <<< b.exponent

/-- The decimal rounds to the number. -/
def admits (b : BinaryFraction) (d : Decimal) : Bool :=
  let n := d.digits * powerOfTen d.up * denominator
  let scale := powerOfTen d.down
  if b.mantissa % 2 = 0 then b.lower * scale ≤ n && n ≤ b.upper * scale
  else b.lower * scale < n && n < b.upper * scale

/-- The number of places before the point that the number fills, counted negatively where it starts
with zeros behind the point. -/
def magnitude (b : BinaryFraction) : Int :=
  let whole := b.numerator / denominator
  if 0 < whole then (Nat.toDigits 10 whole).length
  else
    match (List.range 400).find? fun j => denominator ≤ b.numerator * powerOfTen (j + 1) with
    | some j => -(j : Int)
    | none => -400

/-- The nearest of the decimals with `n` digits that round to the number. -/
def candidate? (b : BinaryFraction) (n : Nat) : Option Decimal :=
  let place := b.magnitude - n
  let up := place.toNat
  let down := (-place).toNat
  let num := b.numerator * powerOfTen down
  let den := denominator * powerOfTen up
  let floor : Decimal := ⟨num / den, up, down⟩
  let ceiling : Decimal := ⟨num / den + 1, up, down⟩
  match b.admits floor && 0 < floor.digits, b.admits ceiling with
  | true, true => if 2 * (num % den) ≤ den then some floor else some ceiling
  | true, false => some floor
  | false, true => some ceiling
  | false, false => none

/-- The shortest decimal that rounds to the number; seventeen digits always do. -/
def shortest (b : BinaryFraction) : Decimal :=
  ((List.range 17).findSome? fun n => b.candidate? (n + 1)).getD ⟨0, 0, 0⟩

end BinaryFraction

namespace Decimal

/-- The text of a list of digits with a point before the last `n` of them. -/
def pointBefore (n : Nat) (digits : List Char) : List Char :=
  let padded := List.replicate (n + 1 - digits.length) '0' ++ digits
  padded.take (padded.length - n) ++ '.' :: padded.drop (padded.length - n)

/-- The positional text, with a zero behind the point if there is nothing else. -/
def text (d : Decimal) : List Char :=
  let digits := Nat.toDigits 10 d.digits
  if d.down = 0 then digits ++ List.replicate d.up '0' ++ ".0".toList
  else
    let zeros := (digits.reverse.takeWhile (· = '0')).length
    let dropped := min zeros (d.down - 1)
    pointBefore (d.down - dropped) (digits.take (digits.length - dropped))

end Decimal

/-! ### Floating point numbers -/

/-- The binary form of a positive finite number, from the bits without the sign. -/
def BinaryFraction.ofBits (bits : Nat) : BinaryFraction :=
  let exponent := bits >>> 52
  let fraction := bits % (1 <<< 52)
  if exponent = 0 then ⟨fraction, 0⟩ else ⟨fraction + (1 <<< 52), exponent - 1⟩

/-- The text of a number; what is not a number and what is infinite have names. -/
def Decimal.ofFloat (x : Float) : String :=
  if x.isNaN then "NaN"
  else
    let bits := x.toBits.toNat
    let sign := if 1 <<< 63 ≤ bits then "-" else ""
    let size := bits % (1 <<< 63)
    if x.isInf then sign ++ "inf"
    else if size = 0 then sign ++ "0.0"
    else sign ++ String.ofList (BinaryFraction.ofBits size).shortest.text

/-- The number nearest to `mantissa * 10 ^ exponent`.  Exponents far outside the range of numbers
are not computed with. -/
def Decimal.toFloat (mantissa : Nat) (exponent : Int) : Float :=
  let places : Int := (Nat.toDigits 10 mantissa).length + exponent
  if mantissa = 0 || places < -400 then 0.0
  else if 400 < places then 1.0 / 0.0
  else if exponent < 0 then Float.ofScientific mantissa true (-exponent).toNat
  else Float.ofScientific mantissa false exponent.toNat

end DocMark
