import DocMark.Program

/-!
# The command

The outermost layer: it looks at the part of the file system that a run can come to, runs the
program on it, and writes what the program ends with.

A run sees the paths it is given with all that lies below them, and of the directories above them
the few entries that say how files are to be treated.
-/

namespace DocMark.Command

/-- The entries that matter in a directory above a given path. -/
def watchedNames : List String := configFileNames ++ [".gitignore", ".git"]

/-- The names of files whose contents matter wherever they are. -/
def readNames : List String := configFileNames ++ [".gitignore", "exclude"]

/-- The target of a link that leads nowhere. -/
def nowhere : String := "/nowhere"

/-- The entry at a location. -/
def entryAt (l : Location) : IO.FS.DirEntry where
  root := l.parent.text
  fileName := l.names.getLastD ""

/-- A file, with its contents if they matter. -/
def fileAt (always : Bool) (e : IO.FS.DirEntry) : IO FileTree := do
  if always || (Path.mk e.fileName).hasYamlExtension || readNames.contains e.fileName then
    return .file (← IO.FS.readBinFile e.path)
  else return .file .empty

/-- An entry with all that lies below it.  A link to a file can stand for the file, since both are
treated alike.  Of a repository's own directory only the list of ignored files matters. -/
partial def treeAt (always : Bool) (e : IO.FS.DirEntry) : IO FileTree := do
  match (← e.path.symlinkMetadata).type with
  | .dir =>
    let entries := (← e.path.readDir).toList
    let wanted := entries.filter fun below => e.fileName ≠ ".git" || below.fileName = "info"
    return .directory (← wanted.mapM fun below => return (below.fileName, ← treeAt false below))
  | .symlink =>
    if ← e.path.isDir then return .link "/"
    else if ← e.path.pathExists then fileAt always e
    else return .link nowhere
  | _ => fileAt always e

/-- A tree with what there is at a location. -/
def load (always : Bool) (tree : FileTree) (l : Location) : IO FileTree := do
  let e := entryAt l
  match ← e.path.symlinkMetadata.toBaseIO with
  | .ok _ => return .put (← treeAt always e) l.names tree
  | .error _ => return tree

/-- A tree with what matters in the directories above a location. -/
def loadAbove (tree : FileTree) (l : Location) : IO FileTree :=
  (l.ancestors.flatMap fun d => watchedNames.map d.child).foldlM (load false) tree

/-- Where something really is, with no links on the way. -/
def realOf (l : Location) : IO Location := do
  match ← (IO.FS.realPath l.text).toBaseIO with
  | .ok p => return (Path.mk p.toString).resolve .root
  | .error _ => return l

/-- A tree with what matters around a given location.  Where links lead somewhere else, a run sees
both places. -/
def loadAround (tree : FileTree) (l : Location) : IO FileTree := do
  let real ← realOf l
  let tree ← loadAbove tree real
  if real = l then return tree
  else loadAbove (.put (.link real.text) l.names tree) l

/-- A directory of the user's own. -/
def userDirectory (cwd : Location) (name : String) : IO Location := do
  let home := (← IO.getEnv "HOME").getD "/"
  let base := (← IO.getEnv "XDG_CONFIG_HOME").getD (home ++ "/.config")
  return ((Path.mk base).resolve cwd).child name

/-- What a run with these paths can see.  Directories come first, so that what matters of single
files is not lost again. -/
def environmentFor (paths : List Path) : IO Environment := do
  let cwd := (Path.mk (← IO.currentDir).toString).resolve .root
  let userConfig ← userDirectory cwd "yamlint"
  let userIgnore := (← userDirectory cwd "git").child "ignore"
  let locations := paths.map (·.resolve cwd)
  let real ← locations.mapM realOf
  let directories ← real.filterM fun l => (entryAt l).path.isDir
  let files := real.filter fun l => !directories.contains l
  let tree ← directories.foldlM (load true) ((FileTree.directory []).ensureDirectory cwd.names)
  let tree ← (files ++ [userIgnore]).foldlM (load true) tree
  let tree ← loadAbove tree userConfig
  let tree ← locations.foldlM loadAround tree
  let paintsLog := ((← IO.getEnv "NO_COLOR").getD "").isEmpty
  return { tree, cwd, userConfig, userIgnore, paintsLog }

/-- Terminals get colours unless the user does not want them. -/
def wantsColour (i : Invocation) : IO Bool := do
  let unwanted := (← IO.getEnv "NO_COLOR").isSome || i.noColour
  return !unwanted && (← (← IO.getStdout).isTty)

/-- Writes what the program ends with. -/
def finish (e : Ending) : IO UInt32 := do
  IO.print e.stdout
  IO.eprint e.stderr
  return e.code.toUInt32

end DocMark.Command

open DocMark in
def main (args : List String) : IO UInt32 := do
  match Invocation.ofArgs args with
  | .error u => Command.finish u.ending
  | .ok i =>
    let start ← IO.monoMsNow
    let env ← Command.environmentFor i.request.paths
    let run := env.check (← Command.wantsColour i) i.request
    let code := run.code
    let elapsed := (← IO.monoMsNow) - start
    let _ ← Command.finish (run.ending (env.log i) (toString elapsed ++ "ms"))
    return code.toUInt32
