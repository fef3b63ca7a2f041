import DocMark.Check
import DocMark.Output
import DocMark.Problem.Json
import DocMark.Report.Excerpt

/-!
# Reports

A report holds the diagnostics of a run and what went wrong with single files.  It is written in one
of four formats: with an excerpt for every diagnostic (`full`), with one line for each (`concise`),
as annotations for a build service (`github`), or as one document for other programs (`json`).

The first two formats are for people: they end in a summary, and failures are told apart from
results.  The summary is left out when there is nothing but failures.
-/

namespace DocMark

/-- How a report is written. -/
inductive Format where
  | full
  | concise
  | github
  | json
  deriving DecidableEq, Repr

namespace Format

def all : List Format := [full, concise, github, json]

def name : Format → String
  | full => "full"
  | concise => "concise"
  | github => "github"
  | json => "json"

def ofName? (name : String) : Option Format := all.find? (·.name = name)

/-- What is reported for a name that no format has. -/
def unknownMessage (name : String) : String := "invalid variant: " ++ name

/-- The format is read by programs, so that nothing may be added to it. -/
def isStructured : Format → Bool
  | github => true
  | json => true
  | _ => false

theorem ofName?_name (f : Format) : ofName? f.name = some f := by cases f <;> rfl

end Format

/-- What a run has to report. -/
structure Report where
  diagnostics : List Diagnostic
  /-- What went wrong with files, under their names. -/
  failures : List (Path × Failure)

namespace Report

/-- The report on files that have been checked, with the diagnostics of all of them in order. -/
def ofResults (results : List FileResult) : Report where
  diagnostics := Diagnostic.sort (results.flatMap (·.diagnostics))
  failures := results.filterMap (·.failure?)

/-- A line that tells of an error. -/
def errorLine (colour : Bool) (text : String) : Notice :=
  .line (paint colour .error "Error" ++ ": " ++ text)

/-- What went wrong, as people are told. -/
def failureNotices (colour : Bool) (r : Report) : List Notice :=
  r.failures.map fun (_, f) => errorLine colour f.brief

/-- What is said when nothing was found. -/
def passedLine : String := "All checks passed!"

/-- How many diagnostics there are. -/
def countLine (n : Nat) : String :=
  if n = 0 then passedLine
  else if n = 1 then "Found 1 error."
  else "Found " ++ toString n ++ " errors."

/-- The end of a report for people. -/
def summary (r : Report) : List String :=
  if r.diagnostics.isEmpty && !r.failures.isEmpty then [] else [countLine r.diagnostics.length]

/-! ### One line for each diagnostic -/

/-- Line and column in brackets. -/
def bracketed (p : Problem) : String :=
  "[" ++ toString p.line ++ ":" ++ toString p.column ++ "]"

def conciseLine (colour : Bool) (cwd : Location) (d : Diagnostic) : String :=
  paint colour .path (d.file.relativize cwd).text ++ " " ++ bracketed d.problem ++ " "
    ++ paint colour .rule d.problem.rule ++ " " ++ d.problem.message

/-- An empty line sets the summary off from the diagnostics. -/
def concise (colour : Bool) (cwd : Location) (r : Report) : Output where
  results :=
    r.diagnostics.map (conciseLine colour cwd)
      ++ (if r.diagnostics.isEmpty then [] else [""]) ++ r.summary
  notices := r.failureNotices colour

/-! ### Annotations -/

/-- The place is given twice, once for the annotation and once for the log of the build. -/
def annotation (d : Diagnostic) : String :=
  let p := d.problem
  "::warning title=yamlint (" ++ p.rule ++ "),file=" ++ d.file.text ++ ",line=" ++ toString p.line
    ++ ",col=" ++ toString p.column ++ "::" ++ d.file.text ++ ":" ++ toString p.line ++ ":"
    ++ toString p.column ++ ": [" ++ p.rule ++ "] " ++ p.message

def github (r : Report) : Output := .ofResults (r.diagnostics.map annotation)

/-! ### One document -/

def failureJson (file : Path) (f : Failure) : Json :=
  .object [("file", .string file.text), ("error", .string f.text)]

def toJson (r : Report) : Json :=
  .object
    [("diagnostics", .array (r.diagnostics.map Diagnostic.toJson)),
      ("errors", .array (r.failures.map fun (file, f) => failureJson file f))]

def json (r : Report) : Output := .ofResults [String.ofList r.toJson.pretty]

/-! ### Excerpts -/

/-- A diagnostic of a file that cannot be shown. -/
def bareLine (path : Path) (p : Problem) : String :=
  path.text ++ " " ++ bracketed p ++ " " ++ p.rule ++ " " ++ p.message

/-- The excerpt for a diagnostic, with an empty line behind it. -/
def excerpt (fs : FileSystem) (colour : Bool) (d : Diagnostic) : List String :=
  let path := d.file.relativize fs.cwd
  (match fs.read d.file with
    | .ok text => Excerpt.lines colour path text d.problem
    | .error _ => [bareLine path d.problem]) ++ [""]

/-- A warning for a diagnostic of a file that cannot be shown. -/
def excerptWarning? (fs : FileSystem) (d : Diagnostic) : Option Notice :=
  match fs.read d.file with
  | .ok _ => none
  | .error e => some (.warning ("Could not read source file " ++ d.file.text ++ ": " ++ e.text))

/-- An empty line sets the failures off from the rest. -/
def full (fs : FileSystem) (colour : Bool) (r : Report) : Output where
  results := r.diagnostics.flatMap (excerpt fs colour) ++ r.summary
  notices :=
    r.failureNotices colour
      ++ (if r.failures.isEmpty || r.diagnostics.isEmpty then [] else [.line ""])
      ++ r.diagnostics.filterMap (excerptWarning? fs)

/-- The report in a format. -/
def write (fs : FileSystem) (colour : Bool) (format : Format) (r : Report) : Output :=
  match format with
  | .full => r.full fs colour
  | .concise => r.concise colour fs.cwd
  | .github => r.github
  | .json => r.json

end Report

end DocMark
