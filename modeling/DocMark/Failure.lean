import DocMark.Problem

/-!
# Failures

A failure says what was tried, from the outermost attempt inwards, and what went wrong in the end.
A text that is not YAML is told apart from all other causes, since its message names the file and
the place and can stand alone (`Failure.brief`).
-/

namespace DocMark

/-- What went wrong in the end. -/
inductive Cause where
  | unparsable (e : ParseError)
  | other (text : String)

namespace Cause

def text : Cause → String
  | unparsable e => e.text
  | other text => text

end Cause

structure Failure where
  /-- What was tried, the outermost attempt first. -/
  attempts : List String
  cause : Cause

namespace Failure

/-- The attempts, and the cause behind them. -/
def chain (f : Failure) : List String := f.attempts ++ [f.cause.text]

/-- The whole chain on one line. -/
def text (f : Failure) : String := String.intercalate ": " f.chain

/-- The cause alone if it says everything, else the whole chain. -/
def brief (f : Failure) : String :=
  match f.cause with
  | .unparsable e => e.text
  | .other _ => f.text

end Failure

end DocMark
