import DocMark.Path

/-!
# Problems and diagnostics

A *problem* is what a rule has to say about one place of a text; a *diagnostic* is a problem of a
named file.  Lines and columns are counted from one.

Problems are ordered by line, column and rule.  The message takes no part, neither in the order nor
in equality, so that a stable sort leaves several messages of one rule at one place in the order in
which they were found.  Diagnostics are ordered by file first, component by component.
-/

namespace DocMark

/-- A remark of a rule about one place. -/
structure Problem where
  line : Nat
  column : Nat
  message : String
  rule : String
  deriving Repr, Inhabited

namespace Problem

instance : Ord Problem where
  compare a b :=
    (compare a.line b.line).then ((compare a.column b.column).then (compare a.rule b.rule))

instance : BEq Problem where
  beq a b := compare a b == .eq

/-- Line, column, message and rule on one line. -/
def text (p : Problem) : String :=
  toString p.line ++ ":" ++ toString p.column ++ " " ++ p.message ++ " (" ++ p.rule ++ ")"

end Problem

/-- A problem of a file. -/
structure Diagnostic where
  file : Path
  problem : Problem
  deriving Repr, Inhabited

namespace Diagnostic

instance : Ord Diagnostic where
  compare a b := (compare a.file b.file).then (compare a.problem b.problem)

instance : BEq Diagnostic where
  beq a b := a.file == b.file && a.problem == b.problem

/-- Not after, in the order in which diagnostics are reported. -/
def le (a b : Diagnostic) : Bool := (compare a b).isLE

/-- In the order of files and positions; equal diagnostics keep their order. -/
def sort (ds : List Diagnostic) : List Diagnostic := ds.mergeSort le

end Diagnostic

/-- The text of a file is not YAML that can be split into tokens.  Line and column are counted from
one. -/
structure ParseError where
  file : Path
  info : String
  line : Nat
  column : Nat
  deriving Repr, Inhabited

namespace ParseError

def text (e : ParseError) : String :=
  "Failed to parse " ++ e.file.text ++ " at line " ++ toString e.line ++ " column "
    ++ toString e.column ++ ": " ++ e.info

end ParseError

end DocMark
