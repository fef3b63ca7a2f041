import DocMark.Failure
import DocMark.FileTree
import DocMark.Lint

/-!
# Checking files

A file is read under the name that is shown for it, relative to the current directory where it lies
there.  What goes wrong with one file (`CheckError`) is kept beside the diagnostics of the others.
-/

namespace DocMark

/-- Why a file could not be checked. -/
inductive CheckError where
  | unreadable (file : Path) (e : FileError)
  | unparsable (file : Path) (e : ParseError)

namespace CheckError

def failure : CheckError → Failure
  | unreadable file e => ⟨["Failed to read file: " ++ file.text], .other e.text⟩
  | unparsable file e => ⟨["Failed to get checks for file: " ++ file.text], .unparsable e⟩

end CheckError

/-- What came out for a file. -/
structure FileResult where
  file : Path
  outcome : Except CheckError (List Diagnostic)

namespace FileResult

/-- What there is to say about the file, if it could be checked. -/
def diagnostics (r : FileResult) : List Diagnostic :=
  match r.outcome with
  | .ok ds => ds
  | .error _ => []

/-- What there is to say about the file, under its name, if there is anything. -/
def findings? (r : FileResult) : Option (Path × List Diagnostic) :=
  if r.diagnostics.isEmpty then none else some (r.file, r.diagnostics)

/-- What went wrong with the file, under its name. -/
def failure? (r : FileResult) : Option (Path × Failure) :=
  match r.outcome with
  | .ok _ => none
  | .error e => some (r.file, e.failure)

end FileResult

namespace FileSystem

/-- Checks the file with this name. -/
def checkNamed (fs : FileSystem) (config : Config) (name : Path) :
    Except CheckError (List Diagnostic) :=
  match fs.read name with
  | .error e => .error (.unreadable name e)
  | .ok text =>
    match lint config name text with
    | .error e => .error (.unparsable name e)
    | .ok ds => .ok ds

/-- Checks a file under the name that is shown for it. -/
def checkFile (fs : FileSystem) (config : Config) (file : Path) : FileResult :=
  let name := file.relativize fs.cwd
  ⟨name, fs.checkNamed config name⟩

/-- Checks files one by one. -/
def checkFiles (fs : FileSystem) (config : Config) (files : List Path) : List FileResult :=
  files.map (fs.checkFile config)

end FileSystem

end DocMark
