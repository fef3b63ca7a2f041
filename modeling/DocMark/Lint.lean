import DocMark.DocumentStart
import DocMark.Suppression
import DocMark.Token.Stream

/-!
# Linting a text

`lint` puts the parts together: it reads the comments that silence rules, splits the text into
tokens, lets every rule of the set look at every window, drops what is silenced, and sorts the rest.
A file that is silenced as a whole is not even split into tokens, so it never fails.
-/

namespace DocMark

/-- Which rules are on, and what they ask for. -/
structure Config where
  rules : RuleSet
  documentStart : DocumentStart.Options := {}
  deriving DecidableEq, Repr

namespace Rule

/-- What a rule has to say about the token of a window. -/
def check (r : Rule) (config : Config) (w : Window) : List Problem :=
  match r with
  | documentStart => DocumentStart.check config.documentStart w

end Rule

namespace Config

/-- What the rules that are on have to say about the token of a window and is not silenced on its
line. -/
def report (config : Config) (s : Suppression) (w : Window) : List Problem :=
  Rule.all.flatMap fun r =>
    if config.rules.contains r then
      (r.check config w).filter fun p => !s.skips p.line r.name
    else []

end Config

/-- The problems of a token stream that are not silenced, in the order of the stream. -/
def problems (config : Config) (s : Suppression) (tokens : List Token) : List Problem :=
  (windows tokens).flatMap (config.report s)

/-- The diagnostics of a text, as one of the named file, in the order of their positions. -/
def lint (config : Config) (file : Path) (text : List Char) :
    Except ParseError (List Diagnostic) :=
  let s := Suppression.ofText text
  if s.skipsFile then .ok []
  else
    match tokenize text with
    | .error e => .error { e with file }
    | .ok tokens => .ok (Diagnostic.sort ((problems config s tokens).map (⟨file, ·⟩)))

end DocMark
