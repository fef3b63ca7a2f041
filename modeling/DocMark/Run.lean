import DocMark.Discovery
import DocMark.Selection
import DocMark.Statistics

/-!
# Checking what the command line names

A run finds its configuration, finds the files, checks them, and reports.  It takes the first
configuration that the search comes to and warns of the others.  It fails as a whole if a
configuration file or a name of a rule cannot be used (`Run.result`); what goes wrong with single
files is part of its report.

A run without any file ends well, with a remark and before rules are looked at.  All others end as
their files came out: a run that shows statistics looks at the diagnostics of all files together
(`Report.status`), one that shows the diagnostics themselves looks at the files that have any
(`Run.statusOfFiles`).
-/

namespace DocMark

/-- What is asked of a run. -/
structure Request where
  paths : List Path
  /-- The rules to apply and not to apply, each as a list with commas. -/
  select : String := ""
  ignore : String := ""
  /-- The time that the run takes is reported too. -/
  timed : Bool := false
  format : Format := .full
  /-- Counts are reported instead of diagnostics. -/
  statistics : Bool := false
  noDefaultExclude : Bool := false

/-- What a run comes to. -/
structure Run where
  output : Output
  /-- The time is still to be added to the output. -/
  timed : Bool
  result : Except Failure ExitStatus

namespace Report

/-- How a run ends that counts the diagnostics of its report. -/
def status (r : Report) : ExitStatus :=
  if r.failures.isEmpty then statusOf r.diagnostics else .error

end Report

namespace Request

/-- The report is for people, and the time and the configuration may be added to it. -/
def isAnnotated (q : Request) : Bool := !q.statistics && !q.format.isStructured

end Request

namespace Run

/-- A run that could not be carried out. -/
def failed (notices : List Notice) (f : Failure) : Run := ⟨.ofNotices notices, false, .error f⟩

/-- Warnings of the configurations that are not used. -/
def unusedWarnings (found : List FoundConfig) : List Notice :=
  (found.drop 1).map fun c =>
    .warning ("Ignoring '" ++ c.file.text ++ "': only one configuration file is used per run")

/-- Warnings of what went wrong while files were searched for. -/
def searchWarnings (d : Discovery) : List Notice :=
  d.warnings.map (.warning ·.text)
    ++ d.errors.map fun e => .warning ("Failed to walk path: " ++ e.text)

/-- The remark that there is nothing to check. -/
def nothingLine (colour : Bool) : String :=
  paint colour .alarm "Warning" ++ ": "
    ++ paint colour .notice "No YAML files found under the given path(s)."

/-- The file of the configuration, if it belongs to another directory than this. -/
def configElsewhere? (cwd : Location) (config? : Option FoundConfig) : Option Path :=
  config?.bind fun c => if c.directory = cwd then none else some c.file

/-- The report as it was asked for. -/
def present (fs : FileSystem) (colour : Bool) (q : Request) (elsewhere? : Option Path)
    (r : Report) : Output :=
  if q.statistics then
    { results := statisticsLines colour elsewhere? r.diagnostics
      notices := r.failures.map fun (_, f) => Report.errorLine colour f.text }
  else
    r.write fs colour q.format
      ++ .ofResults (if q.isAnnotated then usedLines elsewhere? else [])

/-- How a run ends that shows the diagnostics of these files. -/
def statusOfFiles (results : List FileResult) : ExitStatus :=
  if !(results.filterMap (·.failure?)).isEmpty then .error
  else if (results.filterMap (·.findings?)).isEmpty then .success
  else .failure

/-- How a run over these files ends. -/
def statusFor (q : Request) (results : List FileResult) : ExitStatus :=
  if q.statistics then (Report.ofResults results).status else statusOfFiles results

/-- The line on the time a run took. -/
def timeLines (elapsed : String) : List String := ["", "Checked files in: " ++ elapsed]

/-- All that a run writes, when it took this time. -/
def outputAfter (r : Run) (elapsed : String) : Output :=
  r.output ++ .ofResults (if r.timed then timeLines elapsed else [])

/-- The exit code. -/
def code (r : Run) : Nat :=
  match r.result with
  | .ok s => s.code
  | .error _ => ExitStatus.error.code

/-- What is written at last about a run that could not be carried out. -/
def failureNotices (r : Run) : List Notice :=
  match r.result with
  | .ok _ => []
  | .error f => .line "yamlint failed" :: f.chain.map fun cause => .line ("  Cause: " ++ cause)

end Run

namespace Environment

/-- The files for a request. -/
def filesFor (env : Environment) (q : Request) (config? : Option FoundConfig) : Discovery :=
  env.findFiles q.paths (config?.map fun c => (c.directory, c.settings)) q.noDefaultExclude

/-- Carries out a request, once the configurations are found. -/
def checkWith (env : Environment) (colour : Bool) (q : Request) (found : List FoundConfig) : Run :=
  let config? := found.head?
  let d := env.filesFor q config?
  let notices := Run.unusedWarnings found ++ Run.searchWarnings d
  if d.files.isEmpty then ⟨⟨[Run.nothingLine colour], notices⟩, false, .ok .success⟩
  else
    match Config.ofSelections q.select q.ignore (config?.map (·.settings)) with
    | .error e => Run.failed notices ⟨[], .other e.message⟩
    | .ok config =>
      let results := env.checkFiles config d.files
      let elsewhere? := Run.configElsewhere? env.cwd config?
      { output :=
          .ofNotices notices
            ++ Run.present env.toFileSystem colour q elsewhere? (Report.ofResults results)
        timed := q.timed && q.isAnnotated
        result := .ok (Run.statusFor q results) }

/-- Carries out a request. -/
def check (env : Environment) (colour : Bool) (q : Request) : Run :=
  match env.discover q.paths with
  | .error e => Run.failed [] ⟨[], .other e.text⟩
  | .ok found => env.checkWith colour q found

end Environment

end DocMark
