import DocMark.Json.Reader
import DocMark.Problem

/-!
# Diagnostics as JSON

A diagnostic is written as an object with five fields: file name, line, column, message and rule.
When it is read back the fields may stand in any order, among others that mean nothing here, but
each of the five must be there exactly once (`Json.field?`).
-/

namespace DocMark

namespace Json

/-- The value of a key that occurs exactly once. -/
def field? (fields : List (String × Json)) (key : String) : Option Json :=
  match fields.filter (·.1 = key) with
  | [(_, j)] => some j
  | _ => none

def text? : Json → Option String
  | string s => some s
  | _ => none

/-- A whole number without a sign. -/
def natural? : Json → Option Nat
  | integer (.ofNat n) => some n
  | _ => none

end Json

namespace Diagnostic

def toJson (d : Diagnostic) : Json :=
  .object
    [("filename", .string d.file.text), ("line", .integer d.problem.line),
      ("column", .integer d.problem.column), ("message", .string d.problem.message),
      ("rule", .string d.problem.rule)]

def ofJson? : Json → Option Diagnostic
  | .object fields => do
    let file ← (Json.field? fields "filename").bind Json.text?
    let line ← (Json.field? fields "line").bind Json.natural?
    let column ← (Json.field? fields "column").bind Json.natural?
    let message ← (Json.field? fields "message").bind Json.text?
    let rule ← (Json.field? fields "rule").bind Json.text?
    return ⟨⟨file⟩, ⟨line, column, message, rule⟩⟩
  | _ => none

/-- The diagnostic that a text describes. -/
def ofText? (text : List Char) : Option Diagnostic := (Json.parse text).bind ofJson?

end Diagnostic

end DocMark
