import DocMark.Toml.Scalar
import DocMark.Toml.Tree

/-!
# Configuration files

`document?` reads the text of a configuration file into a value, or refuses it.  The grammar is that
of the format; nesting and key paths are limited in depth.

A file is a list of statements, each on lines of its own: pairs, and headers that start a section.
The sections are put into a table one after the other.
-/

namespace DocMark.Toml

open DocMark.Toml.Parser

/-- Brackets may be nested so deep. -/
def deepest : Nat := 79

/-- Values between square brackets, separated by commas; a last comma is allowed. -/
def sequence (item : Parser (Located Value)) : Parser Value := do
  char '['
  let items ← optional? (do
    let spacedItem : Parser (Located Value) := do
      spacing
      let v ← item
      spacing
      return v
    let items ← separated spacedItem (char ',')
    let _ ← optional? (char ',')
    return items)
  spacing
  char ']'
  return .sequence (items.getD [])

/-- A key path with its value, the value read by `item`. -/
def pair (item : Parser (Located Value)) : Parser Table.Pair := do
  let path ← keyPath
  char '='
  blanks
  let v ← item
  blanks
  match path.getLast? with
  | some key => return ⟨path.dropLast, key, .leaf v⟩
  | none => refuse

/-- Pairs between braces on one line, separated by commas. -/
def inlineTable (item : Parser (Located Value)) : Parser Value := do
  char '\x7b'
  let pairs ← optional? (separated (pair item) (char ','))
  blanks
  char '\x7d'
  match Table.insertPairs (Table.ofOrigin .written) (pairs.getD []) with
  | some t => return .table (entryValues t.entries)
  | none => refuse

/-- A value with at most `n` brackets around its innermost part. -/
def value : Nat → Parser (Located Value)
  | 0 => located do
    match ← peek with
    | some '"' | some '\'' => return .string (← anyText)
    | _ => scalar
  | n + 1 => located do
    match ← peek with
    | some '"' | some '\'' => return .string (← anyText)
    | some '[' => sequence (value n)
    | some '\x7b' => inlineTable (value n)
    | _ => scalar

/-! ### Statements -/

/-- A header without the pairs below it. -/
structure Header where
  listed : Bool
  path : List Key

def header : Parser (Located Header) := do
  let h ← located do
    char '['
    let listed := (← optional? (char '[')).isSome
    let path ← keyPath
    if listed then char ']'
    char ']'
    return ⟨listed, path⟩
  lineEnd
  return h

inductive Statement where
  | header (h : Located Header)
  | pair (p : Table.Pair)
  /-- A line that says nothing. -/
  | blank

def statement : Parser Statement := do
  blanks
  match ← peek with
  | some '[' => return .header (← header)
  | some '#' => do
    lineEnd
    return .blank
  | some '\n' | some '\r' => do
    newline
    return .blank
  | none => refuse
  | some _ => do
    let p ← pair (value deepest)
    lineEnd
    return .pair p

/-- All statements of a file, which may start with a byte order mark. -/
def statements : Parser (List Statement) := do
  let _ ← optional? (char '\uFEFF')
  let all ← many statement
  blanks
  if (← rest).isEmpty then return all else refuse

/-- The pairs before the first header. -/
def leadingPairs : List Statement → List Table.Pair
  | .pair p :: rest => p :: leadingPairs rest
  | .blank :: rest => leadingPairs rest
  | _ => []

/-- The headers with the pairs up to the next. -/
def sections : List Statement → List Table.Section
  | [] => []
  | .header h :: rest =>
    (match h.value.path.getLast? with
      | some key =>
        [⟨h.value.listed, h.value.path.dropLast, key, h.span, leadingPairs rest⟩]
      | none => []) ++ sections rest
  | _ :: rest => sections rest

/-- The value of a whole file. -/
def document? (text : List Char) : Option (Located Value) := do
  let (all, _) ← statements.run ⟨0, text⟩
  let root ← Table.insertPairs (Table.ofOrigin .written) (leadingPairs all)
  let full ← (sections all).foldlM Table.insertSection root
  return ⟨⟨0, text.length⟩, .table (entryValues full.entries)⟩

end DocMark.Toml
