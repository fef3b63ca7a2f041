import DocMark.ConfigFile
import DocMark.IgnoreList

/-!
# Finding configuration files

A directory may hold a configuration file, visible or hidden; the visible one counts first.  The
configuration for a path is that of the closest directory above it.  The search does not go above
the user's configuration directory if it comes there, and falls back to that directory if it finds
nothing.

`discover` searches for many paths and reads every file it finds once.  It remembers the directories
where it has been; a search that comes to one of them stops, since all there is to find from there
has been found.
-/

namespace DocMark

/-- Why a configuration file cannot be used. -/
inductive ConfigReadError where
  | unreadable (file : Path) (e : FileError)
  | unusable (file : Path) (e : ConfigFileError)

namespace ConfigReadError

/-- What is reported.  Where a text breaks the grammar is told in the words of a library, which are
not kept: the report then ends with the name of the file. -/
def text : ConfigReadError → String
  | unreadable file e => "Failed to read " ++ file.text ++ ":\n" ++ e.text
  | unusable file .grammar => "Failed to parse " ++ file.text ++ ":\n"
  | unusable file (.content report) => "Failed to parse " ++ file.text ++ ":\n" ++ report

end ConfigReadError

/-- What a run knows of its surroundings. -/
structure Environment extends FileSystem where
  /-- The user's configuration directory. -/
  userConfig : Location
  /-- The user's own list of files that version control ignores. -/
  userIgnore : Location
  /-- What the library says that compiles patterns.  Where its limits lie is left open; a run does not
  come to them unless something else is said. -/
  refusal? : Refusal := fun _ => none
  /-- Remarks are painted, wherever they are written to, unless the user wants no colours. -/
  paintsLog : Bool := false

/-- A configuration file and the directory that it configures. -/
structure FoundConfig where
  directory : Location
  file : Path
  settings : Settings
  deriving Repr

/-- The names of configuration files; the first that is there counts. -/
def configFileNames : List String := ["yamlint.toml", ".yamlint.toml"]

namespace FileSystem

/-- The configuration file of a directory. -/
def configIn? (fs : FileSystem) (directory : Path) : Option Path :=
  (configFileNames.map directory.join).find? fs.isFile

/-- The configuration file of the path itself or of its closest parent. -/
def closestConfig? (fs : FileSystem) (p : Path) : Option Path := p.ancestors.findSome? fs.configIn?

/-- Reads a configuration file. -/
def readConfig (fs : FileSystem) (file : Path) : Except ConfigReadError ConfigFile :=
  match fs.read file with
  | .error e => .error (.unreadable file e)
  | .ok text =>
    match ConfigFile.ofText text with
    | .error e => .error (.unusable file e)
    | .ok c => .ok c

/-- Reads the configuration file of a directory, if it has one. -/
def configAt? (fs : FileSystem) (directory : Location) :
    Except ConfigReadError (Option FoundConfig) :=
  match fs.configIn? directory.path with
  | none => .ok none
  | some file => do
    let c ← fs.readConfig file
    return some ⟨directory, file, c.settings⟩

end FileSystem

namespace Environment

/-- The directories where a search has been, and what all searches have found. -/
structure Search where
  seen : List Location
  found : List FoundConfig

/-- Searches directories from the inside out.  The answer says whether a file was found. -/
def searchUp (env : Environment) (s : Search) :
    List Location → Except ConfigReadError (Search × Bool)
  | [] => .ok (s, false)
  | d :: above =>
    if s.seen.contains d then .ok (s, false)
    else do
      let seen := d :: s.seen
      match ← env.configAt? d with
      | some c => return (⟨seen, s.found ++ [c]⟩, true)
      | none =>
        if d = env.userConfig then return (⟨seen, s.found⟩, false)
        else searchUp env ⟨seen, s.found⟩ above

/-- Looks into the user's configuration directory, unless a search has been there. -/
def fallBack (env : Environment) (s : Search) : Except ConfigReadError Search :=
  if s.seen.contains env.userConfig then .ok s
  else do
    let c? ← env.configAt? env.userConfig
    return ⟨env.userConfig :: s.seen, s.found ++ c?.toList⟩

/-- Searches for one more path. -/
def searchFor (env : Environment) (s : Search) (p : Path) : Except ConfigReadError Search := do
  let (s, found) ← env.searchUp s (p.resolve env.cwd).ancestors
  if found then return s else env.fallBack s

/-- The configurations for some paths, in the order in which they are found. -/
def discover (env : Environment) (paths : List Path) :
    Except ConfigReadError (List FoundConfig) := do
  let s ← paths.foldlM env.searchFor ⟨[], []⟩
  return s.found

end Environment

end DocMark
