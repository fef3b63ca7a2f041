import DocMark.Decimal
import DocMark.Text.Quoted

/-!
# Configuration values

Options come from configuration files or from structured requests.  Both are read into the same
kind of value, a tree of scalars, sequences and tables in which every part knows the stretch of
text where it was written.

A *reader* of such a value asks for a shape (`Shape`) and answers with a domain value or with a
`Mismatch`: the reason, and the place of the value or key that does not fit.  Tables are read entry
by entry in their own order (`Schema.readEntries`), so of several mismatches the first one written
is reported.  A record may also be written as a sequence of its fields; the reader of a field and
the reader of an item are the same.
-/

namespace DocMark

/-- A stretch of a text: `start` characters lie before it, `stop` before its end. -/
structure Span where
  start : Nat
  stop : Nat
  deriving DecidableEq, Repr, Inhabited

/-- Something with the place where it is written. -/
structure Located (α : Type) where
  span : Span
  value : α
  deriving Repr

/-- An entry of a table. -/
structure Entry (α : Type) where
  key : Located String
  item : Located α
  deriving Repr

/-- A value as it was written. -/
inductive Value where
  | null
  | boolean (b : Bool)
  | integer (n : Int)
  | float (x : Float)
  | string (s : String)
  | sequence (items : List (Located Value))
  | table (entries : List (Entry Value))
  deriving Inhabited

namespace Value

/-- What a message calls the value. -/
def description : Value → String
  | null => "null"
  | boolean b => "boolean \x60" ++ toString b ++ "\x60"
  | integer n => "integer \x60" ++ toString n ++ "\x60"
  | float x => "floating point \x60" ++ Decimal.ofFloat x ++ "\x60"
  | string s => "string " ++ Text.quoted s
  | sequence _ => "sequence"
  | table _ => "map"

end Value

/-- What a reader may ask for. -/
inductive Shape where
  | boolean
  | string
  | sequence
  /-- A whole number of 64 bits with a sign. -/
  | integer
  /-- A record, by the name that messages use for it. -/
  | record (name : String)
  deriving DecidableEq, Repr

namespace Shape

def text : Shape → String
  | boolean => "a boolean"
  | string => "a string"
  | sequence => "a sequence"
  | integer => "i64"
  | record name => "struct " ++ name

end Shape

/-- Why a value does not fit. -/
inductive MismatchReason where
  /-- The record has no such field. -/
  | unknownField (name : String) (fields : List String)
  /-- The value is of another kind. -/
  | wrongKind (found : Value) (expected : Shape)
  /-- The number is too large or too small. -/
  | outOfRange (n : Int) (expected : Shape)
  /-- The sequence has too few items for a record without defaults. -/
  | wrongLength (length : Nat) (expected : Shape) (fields : Nat)

namespace MismatchReason

/-- The names a message offers, each between back quotes. -/
def offer (names : List String) : String :=
  match names.map fun n => "\x60" ++ n ++ "\x60" with
  | [] => "there are no fields"
  | [a] => "expected " ++ a
  | [a, b] => "expected " ++ a ++ " or " ++ b
  | all => "expected one of " ++ String.intercalate ", " all

def message : MismatchReason → String
  | unknownField name fields => "unknown field \x60" ++ name ++ "\x60, " ++ offer fields
  | wrongKind found expected =>
    "invalid type: " ++ found.description ++ ", expected " ++ expected.text
  | outOfRange n expected =>
    "invalid value: integer \x60" ++ toString n ++ "\x60, expected " ++ expected.text
  | wrongLength length expected fields =>
    "invalid length " ++ toString length ++ ", expected " ++ expected.text ++ " with "
      ++ toString fields ++ " elements"

end MismatchReason

/-- A value or a key does not fit. -/
structure Mismatch where
  reason : MismatchReason
  span : Span

/-- Reads a value, or says why it does not fit. -/
abbrev Reader (α : Type) := Located Value → Except Mismatch α

/-- What is read in two steps is read if both steps succeed. -/
theorem bind_eq_ok_iff {ε α β : Type} {x : Except ε α} {f : α → Except ε β} {b : β} :
    x >>= f = .ok b ↔ ∃ a, x = .ok a ∧ f a = .ok b := by
  cases x with
  | error e => exact ⟨nofun, fun ⟨_, h, _⟩ => nomatch h⟩
  | ok a => exact ⟨fun h => ⟨a, rfl, h⟩, fun ⟨_, ha, h⟩ => Except.ok.inj ha ▸ h⟩

namespace Reader

/-- Not of the kind that was asked for. -/
def refuse {α : Type} (v : Located Value) (expected : Shape) : Except Mismatch α :=
  .error ⟨.wrongKind v.value expected, v.span⟩

def boolean : Reader Bool := fun v =>
  match v.value with
  | .boolean b => .ok b
  | _ => refuse v .boolean

/-- The number has 64 bits with a sign. -/
def isWord (n : Int) : Bool := -0x8000000000000000 ≤ n && n < 0x8000000000000000

def integer : Reader Int := fun v =>
  match v.value with
  | .integer n => if isWord n then .ok n else .error ⟨.outOfRange n .integer, v.span⟩
  | _ => refuse v .integer

def string : Reader String := fun v =>
  match v.value with
  | .string s => .ok s
  | _ => refuse v .string

/-- All items, each by the same reader. -/
def sequence {α : Type} (item : Reader α) : Reader (List α) := fun v =>
  match v.value with
  | .sequence items => items.mapM item
  | _ => refuse v .sequence

end Reader

/-- A field of a record of type `α`: its name, and how its value changes the record. -/
structure Field (α : Type) where
  name : String
  read : α → Reader α

/-- How a record is written: what messages call it, its fields in order, and the record before any
field is read. -/
structure Schema (α : Type) where
  name : String
  fields : List (Field α)
  empty : α
  /-- The record may also be written as a sequence; the number of items it needs then. -/
  needed : Nat

namespace Schema

variable {α : Type}

def shape (s : Schema α) : Shape := .record s.name

def field? (s : Schema α) (name : String) : Option (Field α) := s.fields.find? (·.name = name)

/-- Reads one more entry of a table. -/
def readEntry (s : Schema α) (x : α) (e : Entry Value) : Except Mismatch α :=
  match s.field? e.key.value with
  | some f => f.read x e.item
  | none => .error ⟨.unknownField e.key.value (s.fields.map (·.name)), e.key.span⟩

/-- Reads the entries of a table in their order. -/
def readEntries (s : Schema α) (x : α) (es : List (Entry Value)) : Except Mismatch α :=
  es.foldlM s.readEntry x

/-- Reads the items of a sequence as the fields in their order; further items say nothing. -/
def readItems : α → List (Field α) → List (Located Value) → Except Mismatch α
  | x, [], _ => .ok x
  | x, _, [] => .ok x
  | x, f :: fs, v :: vs => do readItems (← f.read x v) fs vs

def read (s : Schema α) : Reader α := fun v =>
  match v.value with
  | .table entries => s.readEntries s.empty entries
  | .sequence items => do
    let x ← readItems s.empty s.fields items
    if items.length < s.needed then
      .error ⟨.wrongLength items.length s.shape s.fields.length, v.span⟩
    else .ok x
  | _ => Reader.refuse v s.shape

end Schema

end DocMark
