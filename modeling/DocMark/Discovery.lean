import DocMark.ConfigSearch
import DocMark.IgnoreList

/-!
# Finding the files to check

Every given path is a root.  A root that is no directory is taken whatever it is called; below a
directory the files with the extension of YAML are found.  On the way down entries are left out
(`Walk.skips`)

* that the settings exclude, always;
* that version control ignores, inside a repository;
* whose names begin with a dot, unless version control takes them back in.

Links below a root are not followed; one with the right extension counts as a file.

Version control looks into the lists of all directories from the entry up to the root of its
repository, also above the walked root; the closest list that says something decides.  Then come the
lists that belong to the repository but not to its files, then the user's own.

The excluded patterns are compiled together.  If they are refused, the search warns of it and goes on
as if nothing was to be excluded (`Environment.excluded`).
-/

namespace DocMark

/-! ### Excluded files -/

/-- What is excluded unless somebody asks for it. -/
def defaultExcludes : List String := [".git/", "node_modules/", ".venv/"]

/-- The patterns that settings exclude. -/
def excludePatterns (settings : Option Settings) (noDefaults : Bool) : List String :=
  (settings.bind (·.exclude)).getD []
    ++ if noDefaults || settings.bind (·.defaultExclude) = some false then [] else defaultExcludes

/-- The rule of an excluding pattern.  The mark in front keeps marks of the pattern's own from
meaning anything. -/
def excludeRule? (pattern : String) : Except IgnoreRuleError (Option IgnoreRule) :=
  IgnoreRule.ofLine? false ('!' :: pattern.toList)

/-- What is wrong with excluding patterns. -/
inductive ExcludeWarning where
  | badPattern (pattern : String) (error : IgnoreRuleError)
  /-- None of them is used, since they cannot be compiled together. -/
  | refused (reason : String)
  deriving DecidableEq, Repr

namespace ExcludeWarning

def text : ExcludeWarning → String
  | badPattern pattern error =>
    "Failed to add exclude pattern '" ++ pattern ++ "': " ++ error.text
  | refused reason => "Failed to build exclude patterns: " ++ reason

end ExcludeWarning

/-- Warnings of the patterns that cannot be used. -/
def badPatterns (patterns : List String) : List ExcludeWarning :=
  patterns.filterMap fun p => match excludeRule? p with
    | .ok _ => none
    | .error e => some (.badPattern p e)

/-- The rules of the other patterns, counting from a directory if there is one. -/
def excludeList (directory : Option Location) (patterns : List String) : IgnoreList :=
  ⟨directory, patterns.filterMap fun p => match excludeRule? p with
    | .ok r => r
    | .error _ => none⟩

namespace Environment

/-- Why patterns are not used, if they can be read but cannot be compiled together. -/
def excludeRefusal? (env : Environment) (patterns : List String) : Option String :=
  if patterns.isEmpty then none else env.refusal? ((excludeList none patterns).rules.map (·.glob))

/-- What is excluded: what the patterns say, or nothing if they are refused. -/
def excluded (env : Environment) (directory : Option Location) (patterns : List String) :
    IgnoreList :=
  match env.excludeRefusal? patterns with
  | none => excludeList directory patterns
  | some _ => .empty

/-- What is warned of about patterns. -/
def excludeWarnings (env : Environment) (patterns : List String) : List ExcludeWarning :=
  badPatterns patterns ++ ((env.excludeRefusal? patterns).map .refused).toList

end Environment

/-! ### What version control ignores -/

/-- Where something is: under which name the walk has come to it, and where it really is. -/
structure Place where
  shown : Location
  real : Location

namespace Place

def child (p : Place) (name : String) : Place := ⟨p.shown.child name, p.real.child name⟩

end Place

/-- The lists of a directory. -/
structure DirectoryLists where
  /-- The directory lies above the walked root, so it has to do with real locations. -/
  above : Bool
  /-- The list among its files. -/
  ignore : IgnoreList
  /-- The list that belongs to its repository, if it is the root of one. -/
  exclude : IgnoreList
  isRepository : Bool

namespace FileSystem

/-- What the file of a list says.  If there is no such file, it says nothing. -/
def listContents (fs : FileSystem) (file : Path) : IgnoreList.Contents :=
  match fs.bytes file with
  | .ok bytes => .ofBytes bytes.toList
  | .error _ => .empty

/-- The list in a file, if there is one. -/
def ignoreList (fs : FileSystem) (refusal? : Refusal) (base : Location) (file : Path) : IgnoreList :=
  .compile refusal? (some base) (fs.listContents file).rules

/-- What is told of the list in a file. -/
def listFaults (fs : FileSystem) (refusal? : Refusal) (file : Path) : List IgnoreList.Fault :=
  let c := fs.listContents file
  c.told ++ ((refusal? (c.rules.map (·.glob))).map .refused).toList

/-- The list among the files of a directory. -/
def ignoreFile (directory : Location) : Path := (directory.child ".gitignore").path

/-- The lists of a directory. -/
def listsOf (fs : FileSystem) (refusal? : Refusal) (above : Bool) (directory : Location) :
    DirectoryLists where
  above
  ignore := fs.ignoreList refusal? directory (ignoreFile directory)
  exclude :=
    fs.ignoreList refusal? directory (((directory.child ".git").child "info").child "exclude").path
  isRepository := match fs.node? true (directory.child ".git").path with
    | .ok _ => true
    | .error _ => false

end FileSystem

namespace DirectoryLists

/-- The directories up to the root of the closest repository, from the inside out. -/
def upToRepository : List DirectoryLists → List DirectoryLists
  | [] => []
  | d :: ds => if d.isRepository then [d] else d :: upToRepository ds

/-- What the first list that says something says about a place. -/
def firstVerdict (list : DirectoryLists → IgnoreList) (ds : List DirectoryLists) (place : Place)
    (isDirectory : Bool) : Verdict :=
  ds.foldr (fun d v =>
    ((list d).verdict (if d.above then place.real else place.shown) isDirectory).or v) .silent

/-- What version control says, for an entry of the first of these directories. -/
def verdict (user : IgnoreList) (ds : List DirectoryLists) (place : Place) (isDirectory : Bool) :
    Verdict :=
  if ds.any (·.isRepository) then
    let near := upToRepository ds
    (firstVerdict ignore near place isDirectory).or
      ((firstVerdict exclude near place isDirectory).or (user.verdict place.shown isDirectory))
  else .silent

end DirectoryLists

/-! ### The walk -/

/-- Something is wrong with a root. -/
inductive WalkError where
  | unreachable (root : Path) (e : FileError)
  /-- Something is wrong with lists above it. -/
  | badLists (faults : List (Path × IgnoreList.Fault))

namespace WalkError

def text : WalkError → String
  | unreachable root e => root.text ++ ": " ++ e.text
  | badLists faults => String.intercalate "\n" (faults.map fun (file, f) => f.text file)

end WalkError

/-- What a walk has to know. -/
structure Walk where
  fs : FileSystem
  /-- What the library says that compiles patterns. -/
  refusal? : Refusal
  excluded : IgnoreList
  /-- The user's own list. -/
  user : IgnoreList

namespace Walk

/-- The entry of a directory is left out. -/
def skips (w : Walk) (above : List DirectoryLists) (place : Place) (name : String)
    (isDirectory : Bool) : Bool :=
  w.excluded.verdict place.shown isDirectory ≠ .silent ||
    match DirectoryLists.verdict w.user above place isDirectory with
    | .ignored => true
    | .kept => false
    | .silent => name.toList.head? = some '.'

mutual

/-- The files at a place below a root. -/
def files (w : Walk) (above : List DirectoryLists) (place : Place) : FileTree → List Path
  | .directory entries => filesOf w (w.fs.listsOf w.refusal? false place.shown :: above) place entries
  | .file _ => if place.shown.path.hasYamlExtension then [place.shown.path] else []
  | .link _ => if place.shown.path.hasYamlExtension then [place.shown.path] else []

/-- The files among the entries of a directory and below them. -/
def filesOf (w : Walk) (above : List DirectoryLists) (directory : Place) :
    List (String × FileTree) → List Path
  | [] => []
  | (name, entry) :: rest =>
    let place := directory.child name
    (if w.skips above place name entry.isDirectory then [] else files w above place entry)
      ++ filesOf w above directory rest

end

/-- The directories above a location, from the inside out. -/
def directoriesAbove (l : Location) : List Location := l.ancestors.drop 1

/-- What is wrong with the list of a directory. -/
def faults (w : Walk) (directory : Location) : List (Path × IgnoreList.Fault) :=
  let file := FileSystem.ignoreFile directory
  (w.fs.listFaults w.refusal? file).map fun f => (file, f)

/-- The files for a root. -/
def rootFiles (w : Walk) (root : Location) : List Path :=
  match w.fs.locate true root.path, w.fs.node? true root.path with
  | .ok real, .ok (.directory entries) =>
    w.files ((directoriesAbove real).map (w.fs.listsOf w.refusal? true)) ⟨root, real⟩ (.directory entries)
  | _, .ok _ => [root.path]
  | _, .error _ => []

/-- A root that cannot be walked at all. -/
def unreachable? (w : Walk) (root : Location) : Option WalkError :=
  match w.fs.node? true root.path with
  | .ok _ => none
  | .error e => some (.unreachable root.path e)

/-- What is wrong with the lists above a root that is a directory. -/
def badLists? (w : Walk) (root : Location) : Option WalkError :=
  match w.fs.locate true root.path, w.fs.node? true root.path with
  | .ok real, .ok (.directory _) =>
    match (directoriesAbove real).reverse.flatMap w.faults with
    | [] => none
    | faults => some (.badLists faults)
  | _, _ => none

end Walk

/-- What a search for files has found. -/
structure Discovery where
  files : List Path
  errors : List WalkError
  warnings : List ExcludeWarning

namespace Discovery

/-- Not after, in the order of paths. -/
def pathLe (a b : Path) : Bool := (compare a b).isLE

end Discovery

namespace Environment

/-- What the walk has to know for a search.  The patterns of the settings count from their
directory. -/
def walkFor (env : Environment) (config : Option (Location × Settings)) (noDefaults : Bool) :
    Walk where
  fs := env.toFileSystem
  refusal? := env.refusal?
  excluded := env.excluded (config.map (·.1)) (excludePatterns (config.map (·.2)) noDefaults)
  user := env.ignoreList env.refusal? env.cwd env.userIgnore.path

/-- The files for some paths. -/
def findFiles (env : Environment) (paths : List Path) (config : Option (Location × Settings))
    (noDefaults : Bool) : Discovery :=
  if paths.isEmpty then ⟨[], [], []⟩
  else
    let w := env.walkFor config noDefaults
    let roots := paths.map (·.resolve env.cwd)
    { files := (roots.flatMap w.rootFiles).mergeSort Discovery.pathLe
      errors := roots.filterMap w.unreachable? ++ roots.filterMap w.badLists?
      warnings := env.excludeWarnings (excludePatterns (config.map (·.2)) noDefaults) }

end Environment

end DocMark
