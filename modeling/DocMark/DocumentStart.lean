import DocMark.Problem
import DocMark.Rule
import DocMark.Token

/-!
# The rule about document markers

A document may open with the marker `---`.  The rule either requires the marker before every
document and bounds the number of empty lines after it, or forbids it.

The rule looks at one window at a time and keeps no state: a document begins after the start of the
stream, after the end of a document and after a directive, so the token before the current one says
whether a marker had to stand here.
-/

namespace DocMark.DocumentStart

/-- What the rule asks for. -/
structure Options where
  /-- The marker is required, else forbidden. -/
  present : Bool := true
  /-- The least number of empty lines after a marker; no demand unless positive. -/
  minEmptyLines : Int := 0
  /-- The greatest number of empty lines after a marker; no limit if negative. -/
  maxEmptyLines : Int := -1
  deriving DecidableEq, Repr, Inhabited

/-- How a text can offend. -/
inductive Violation where
  | missing
  | forbidden
  | tooManyEmptyLines
  | tooFewEmptyLines
  deriving DecidableEq, Repr

namespace Violation

def message : Violation → String
  | missing => "missing document start \"---\""
  | forbidden => "found forbidden document start \"---\""
  | tooManyEmptyLines => "too many empty lines after document start"
  | tooFewEmptyLines => "too few empty lines after document start"

/-- The problem that reports this violation. -/
def problem (v : Violation) (line column : Nat) : Problem :=
  ⟨line, column, v.message, Rule.documentStart.name⟩

end Violation

/-- After such a token a document begins. -/
def opensDocument (k : TokenKind) : Bool :=
  k = .streamStart || k = .documentEnd || k = .directive

/-- Such a token may follow where a document begins: the marker, what comes before a marker, or the
end of it all. -/
def isMarkerOrEnd (k : TokenKind) : Bool :=
  k = .documentStart || k = .directive || k = .streamEnd

/-- The number of lines between a token and the one before it; `-1` if they share a line, and less
if the token stands above. -/
def emptyLines (prev token : Token) : Int := (token.line : Int) - prev.line - 1

/-- More empty lines than the options allow. -/
def Options.exceeds (o : Options) (n : Int) : Bool := 0 ≤ o.maxEmptyLines && o.maxEmptyLines < n

/-- Fewer empty lines than the options demand. -/
def Options.fallsShort (o : Options) (n : Int) : Bool := 0 < o.minEmptyLines && n < o.minEmptyLines

/-- The marker is forbidden: report it. -/
def checkForbidden (t : Token) : List Problem :=
  if t.kind = .documentStart then [Violation.forbidden.problem (t.line + 1) (t.column + 1)] else []

/-- The marker is required: report a document that opens without it. -/
def checkMissing (prev t : Token) : List Problem :=
  if opensDocument prev.kind && !isMarkerOrEnd t.kind then
    [Violation.missing.problem (t.line + 1) 1]
  else []

/-- Report what follows a marker at the wrong distance. -/
def checkEmptyLines (o : Options) (prev t : Token) : List Problem :=
  if prev.kind = .documentStart then
    let n := emptyLines prev t
    let here (v : Violation) := v.problem (t.line + 1) (t.column + 1)
    (if o.exceeds n then [here .tooManyEmptyLines] else [])
      ++ (if o.fallsShort n then [here .tooFewEmptyLines] else [])
  else []

/-- What the rule has to say about the token of a window. -/
def check (o : Options) (w : Window) : List Problem :=
  if o.present then
    match w.prev with
    | none => []
    | some prev => checkMissing prev w.token ++ checkEmptyLines o prev w.token
  else checkForbidden w.token

/-- What the rule has to say about each token of a stream. -/
def checkStream (o : Options) (tokens : List Token) : List (List Problem) :=
  (windows tokens).map (check o)

end DocMark.DocumentStart
