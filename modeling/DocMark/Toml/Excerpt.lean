import DocMark.Text.Bytes
import DocMark.Value

/-!
# Showing where a configuration file is wrong

A mismatch is shown with the line on which it starts and a row of carets under the part that does
not fit.  The row is as long as that part is in bytes, but goes no further than the line and is
never empty.
-/

namespace DocMark.Toml

/-- The number of carets under a part of a line. -/
def caretCount (text : List Char) (span : Span) (line : List Char) (column : Nat) : Nat :=
  let part := (text.take span.stop).drop span.start
  max 1 (min (Text.byteLength part) (Text.byteLength line - column))

/-- The whole message for a mismatch in a file with this text. -/
def mismatchReport (text : List Char) (m : Mismatch) : String :=
  let p := Text.positionAt text m.span.start
  let line := (Text.pieces (· = '\n') text)[p.line]?.getD []
  let number := toString (p.line + 1)
  let gutter := String.ofList (List.replicate (number.length + 1) ' ') ++ "|"
  let carets := List.replicate (p.column + 1) ' '
    ++ List.replicate (caretCount text m.span line p.column) '^'
  "TOML parse error at line " ++ number ++ ", column " ++ toString (p.column + 1) ++ "\n"
    ++ gutter ++ "\n"
    ++ number ++ " | " ++ String.ofList line ++ "\n"
    ++ gutter ++ String.ofList carets ++ "\n"
    ++ m.reason.message ++ "\n"

end DocMark.Toml
