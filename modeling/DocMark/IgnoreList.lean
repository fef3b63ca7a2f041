import DocMark.FileTree
import DocMark.Glob.Parser
import DocMark.Text.Bytes

/-!
# Lists of files to ignore

A list of ignored files has a pattern on each line.  A pattern that begins with an exclamation mark
takes files back in, one that ends with a slash is about directories alone, and one with a slash
elsewhere counts from the directory of the list, while all others match a name at any depth.  Of the
patterns that match a path the last one decides (`IgnoreList.verdict`).

The path of a file is shortened by the directory of the list as a text, not name by name: what is
left of a path outside that directory may match as well.

The patterns of a list are read one by one and then compiled together.  This is done by a library
that may refuse to (`Refusal`); a list whose patterns are refused has no rules at all.
-/

namespace DocMark

/-- A pattern of a list. -/
structure IgnoreRule where
  glob : Glob
  /-- Takes files back in. -/
  negated : Bool
  directoriesOnly : Bool

/-- A pattern cannot be used: the line without what is dropped from its end, and the reason. -/
structure IgnoreRuleError where
  line : String
  reason : GlobError
  deriving DecidableEq, Repr

namespace IgnoreRuleError

def text (e : IgnoreRuleError) : String :=
  "error parsing glob '" ++ e.line ++ "': " ++ e.reason.text

end IgnoreRuleError

namespace IgnoreRule

/-- The white space at the end of a line does not count, unless a backslash stands before a last
space. -/
def trimLine (line : List Char) : List Char :=
  match line.reverse with
  | ' ' :: '\\' :: _ => line
  | _ => Text.trimEnd line

/-- A line without a mark at its start, whether it is negated, and whether a slash was at the
start. -/
def readMarks (line : List Char) : List Char × Bool × Bool :=
  match line with
  | '\\' :: '!' :: rest => ('!' :: rest, false, false)
  | '\\' :: '#' :: rest => ('#' :: rest, false, false)
  | _ =>
    let (line, negated) := match line with
      | '!' :: rest => (rest, true)
      | _ => (line, false)
    match line with
    | '/' :: rest => (rest, negated, true)
    | _ => (line, negated, false)

/-- A line without a slash at its end, and whether there was one. -/
def readEnd (line : List Char) : List Char × Bool :=
  match line.reverse with
  | '/' :: '\\' :: rest => (rest.reverse, true)
  | '/' :: rest => (rest.reverse, true)
  | _ => (line, false)

/-- The pattern to match whole paths with. -/
def fullPattern (line : List Char) (anchored : Bool) : List Char :=
  let deep :=
    if anchored || line.contains '/' || line = ['*', '*'] then line
    else ['*', '*', '/'] ++ line
  if ['*', '*', '/'].isPrefixOf deep.reverse then deep ++ ['/', '*'] else deep

/-- The rule of a line; comments and blank lines have none. -/
def ofLine? (unclosedClasses : Bool) (line : List Char) :
    Except IgnoreRuleError (Option IgnoreRule) :=
  let line := if line.head? = some '#' then [] else trimLine line
  if line.isEmpty then .ok none
  else
    let (body, negated, anchored) := readMarks line
    let (body, directoriesOnly) := readEnd body
    match Glob.ofPattern unclosedClasses (fullPattern body anchored) with
    | .ok glob => .ok (some ⟨glob, negated, directoriesOnly⟩)
    | .error reason => .error ⟨String.ofList line, reason⟩

/-- The rule is about this path. -/
def isMatch (r : IgnoreRule) (path : Bytes) (isDirectory : Bool) : Bool :=
  (isDirectory || !r.directoriesOnly) && r.glob.isMatch path

end IgnoreRule

/-- What a list says about a path. -/
inductive Verdict where
  | silent
  | ignored
  /-- Taken back in. -/
  | kept
  deriving DecidableEq, Repr

namespace Verdict

/-- The first verdict that says something. -/
def or : Verdict → Verdict → Verdict
  | silent, v => v
  | v, _ => v

end Verdict

/-- Why the patterns of a list cannot be compiled together, if they cannot.  The library that compiles
them has limits of its own, on how deep they nest and on the room they take. -/
def Refusal : Type := List Glob → Option String

/-- The rules of a list and the directory from which they count. -/
structure IgnoreList where
  /-- `none` if paths are matched as they are. -/
  base : Option Location
  rules : List IgnoreRule

namespace IgnoreList

def empty : IgnoreList := ⟨none, []⟩

/-- The part of a path that rules are matched with. -/
def strip (l : IgnoreList) (path : List Char) : List Char :=
  match l.base with
  | none => path
  | some base =>
    let start := base.text.toList
    if start.isPrefixOf path then
      match path.drop start.length with
      | '/' :: rest => rest
      | rest => rest
    else path

/-- What the list says about the file or directory at a location. -/
def verdict (l : IgnoreList) (file : Location) (isDirectory : Bool) : Verdict :=
  let path := utf8 (l.strip file.text.toList)
  match l.rules.reverse.find? (·.isMatch path isDirectory) with
  | none => .silent
  | some r => if r.negated then .kept else .ignored

/-! ### Reading a list -/

/-- Rules that are used together: all of them, or none if their patterns are refused. -/
def compile (refusal? : Refusal) (base : Option Location) (rules : List IgnoreRule) : IgnoreList :=
  match refusal? (rules.map (·.glob)) with
  | none => ⟨base, rules⟩
  | some _ => .empty

/-- What is wrong with a list in a file. -/
inductive Fault where
  | badLine (number : Nat) (e : IgnoreRuleError)
  /-- From this line on the file is not read, since the line is not UTF-8. -/
  | notText (number : Nat)
  | refused (reason : String)
  deriving DecidableEq, Repr

namespace Fault

/-- What is reported about a file. -/
def text (file : Path) : Fault → String
  | badLine number e => file.text ++ ": line " ++ toString number ++ ": " ++ e.text
  | notText number => file.text ++ ": line " ++ toString number ++ ": " ++ FileError.notText.text
  | refused reason => reason

end Fault

/-- What the lines of a file say, and what is wrong with them. -/
structure Contents where
  rules : List IgnoreRule
  faults : List Fault

namespace Contents

def empty : Contents := ⟨[], []⟩

/-- The rules of the lines of a text. -/
def ofText (text : List Char) : Contents :=
  let text := text.dropWhile (· = '\uFEFF')
  let read := (Text.lines text).zipIdx.map fun (line, n) => (n + 1, IgnoreRule.ofLine? true line)
  { rules := read.filterMap fun (_, r) => match r with
      | .ok rule => rule
      | .error _ => none
    faults := read.filterMap fun (n, r) => match r with
      | .ok _ => none
      | .error e => some (.badLine n e) }

/-- The text of the lines before the first one that is not UTF-8, and the number of that line if
there is one.  The first of these lines has the number `n`. -/
def readable (n : Nat) : List Bytes → List Char × Option Nat
  | [] => ([], none)
  | line :: rest =>
    match String.fromUTF8? ⟨line.toArray⟩ with
    | none => ([], some n)
    | some s =>
      let (text, bad?) := readable (n + 1) rest
      (s.toList ++ text, bad?)

/-- What the bytes of a file say.  Only its readable lines count. -/
def ofBytes (bytes : Bytes) : Contents :=
  let (text, bad?) := readable 1 (Text.linesWithEnds (10 : UInt8) bytes)
  let c := ofText text
  { c with faults := c.faults ++ (bad?.map .notText).toList }

/-- What is told of what is wrong with the lines.  A line that is not UTF-8 is passed over in
silence, unless there is something else to tell. -/
def told (c : Contents) : List Fault :=
  match c.faults with
  | [.notText _] => []
  | faults => faults

end Contents

end IgnoreList

end DocMark
