import DocMark.Path

/-!
# File trees

A file tree is all that a run can see of a file system: files with their bytes, symbolic links with
their targets, and directories.  A path leads through the tree step by step (`FileTree.walk`); links
on the way are followed, and too many of them are an error.  The outcome is the *place* that the
path really denotes, which is a location without links on the way.

`FileSystem` is a tree with a current directory; its operations are those of programs: is this a
file, what does it say.

The names of entries and the targets of links are texts.  Files with other names do not occur in a
tree; what is said of their paths is in `DocMark.Path.Raw`.
-/

namespace DocMark

/-- An entry of a file system. -/
inductive FileTree where
  | file (bytes : ByteArray)
  | link (target : String)
  | directory (entries : List (String × FileTree))
  deriving Inhabited

/-- Why a file cannot be used. -/
inductive FileError where
  | notFound
  | notADirectory
  | isDirectory
  | tooManyLinks
  | notText
  deriving DecidableEq, Repr

namespace FileError

def text : FileError → String
  | notFound => "No such file or directory (os error 2)"
  | notADirectory => "Not a directory (os error 20)"
  | isDirectory => "Is a directory (os error 21)"
  | tooManyLinks => "Too many levels of symbolic links (os error 40)"
  | notText => "stream did not contain valid UTF-8"

end FileError

namespace FileTree

def isDirectory : FileTree → Bool
  | directory _ => true
  | _ => false

/-- The entries of a directory; nothing else has any. -/
def entries : FileTree → List (String × FileTree)
  | directory es => es
  | _ => []

/-- The entry of a directory with this name. -/
def child? (t : FileTree) (name : String) : Option FileTree :=
  (t.entries.find? (·.1 = name)).map (·.2)

/-- What is at a place; links are not followed. -/
def at? (t : FileTree) (names : List String) : Option FileTree :=
  names.foldl (fun t? n => t?.bind (·.child? n)) (some t)

/-- With an entry at a place.  Directories that are missing on the way come about; what is there and
is no directory makes room for one. -/
def put (entry : FileTree) : List String → FileTree → FileTree
  | [], _ => entry
  | n :: ns, t =>
    let child := put entry ns ((t.child? n).getD (directory []))
    directory (t.entries.filter (·.1 ≠ n) ++ [(n, child)])

/-- With a directory at a place, which is left as it is if there is one. -/
def ensureDirectory (t : FileTree) (names : List String) : FileTree :=
  match t.at? names with
  | some (directory _) => t
  | _ => put (directory []) names t

/-- What a path says step by step.  Other than its components, a slash or a dot at the end still
says that a directory is meant. -/
def steps (p : Path) : List Component :=
  let text := p.text.toList
  let ending := match text.reverse with
    | '/' :: _ | ['.'] | '.' :: '/' :: _ => [.current]
    | _ => []
  p.components ++ ending

/-- The number of links that may be followed. -/
def linkLimit : Nat := 40

/-- Goes on from the directory `here`.  At a link that has to be followed `onLink` takes over, with
the steps that are then left.  A link at the end of the way is followed only if `follow` says so. -/
def walkWith (root : FileTree) (follow : Bool)
    (onLink : Location → List Component → Except FileError Location) (here : Location) :
    List Component → Except FileError Location
  | [] => .ok here
  | .normal name :: rest =>
    let there := here.child name
    match root.at? there.names with
    | none => .error .notFound
    | some (.directory _) => walkWith root follow onLink there rest
    | some (.file _) => if rest.isEmpty then .ok there else .error .notADirectory
    | some (.link target) =>
      if rest.isEmpty && !follow then .ok there else onLink here (steps ⟨target⟩ ++ rest)
  | step :: rest => walkWith root follow onLink (here.step step) rest

/-- Goes on from a directory and follows at most so many links. -/
def walk (root : FileTree) (follow : Bool) :
    Nat → Location → List Component → Except FileError Location
  | 0 => walkWith root follow fun _ _ => .error .tooManyLinks
  | links + 1 => walkWith root follow (walk root follow links)

end FileTree

/-- A tree seen from a current directory. -/
structure FileSystem where
  tree : FileTree
  cwd : Location

namespace FileSystem

/-- The place that a path denotes.  The empty path denotes nothing. -/
def locate (fs : FileSystem) (follow : Bool) (p : Path) : Except FileError Location :=
  if p.text.isEmpty then .error .notFound
  else fs.tree.walk follow FileTree.linkLimit fs.cwd (FileTree.steps p)

/-- What is at the place that a path denotes. -/
def node? (fs : FileSystem) (follow : Bool) (p : Path) : Except FileError FileTree :=
  match fs.locate follow p with
  | .error e => .error e
  | .ok l =>
    match fs.tree.at? l.names with
    | some t => .ok t
    | none => .error .notFound

/-- The path denotes a file, directly or through links. -/
def isFile (fs : FileSystem) (p : Path) : Bool :=
  match fs.node? true p with
  | .ok (.file _) => true
  | _ => false

/-- The bytes of a file. -/
def bytes (fs : FileSystem) (p : Path) : Except FileError ByteArray :=
  match fs.node? true p with
  | .error e => .error e
  | .ok (.file bytes) => .ok bytes
  | .ok _ => .error .isDirectory

/-- The text of a file. -/
def read (fs : FileSystem) (p : Path) : Except FileError (List Char) :=
  match fs.bytes p with
  | .error e => .error e
  | .ok bytes =>
    match String.fromUTF8? bytes with
    | some s => .ok s.toList
    | none => .error .notText

end FileSystem

end DocMark
