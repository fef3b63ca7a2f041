import DocMark.Text.Space

/-!
# Paths

A *path* is a text as somebody wrote it, absolute or relative to the current directory.  Its
*components* are what the text says once doubled slashes, a final slash and the dots inside are
forgotten; paths are equal and ordered by their components.

A *location* is what a path denotes: the names on the way from the root of the file system.  The
meaning is lexical (`..` undoes the name before it, and stays at the root), so no file system is
needed for it:

* `Path.resolve cwd p` — the location that `p` denotes, seen from the directory `cwd`;
* `Path.relativize cwd p` — the shortest text that denotes the same location: relative to `cwd`
  where that is possible, absolute elsewhere.

Paths that name the same location may still be different paths: `./a` is not `a`.

A path is a text here, and so are the names in a location.  Names of files whose bytes are no text
have no path of this kind; those are in `DocMark.Path.Raw`.
-/

namespace DocMark

/-- One step of a path. -/
inductive Component where
  | root
  | current
  | parent
  | normal (name : String)
  deriving DecidableEq, Repr

namespace Component

/-- The root comes first, then `.`, `..` and the names. -/
def rank : Component → Nat
  | root => 0
  | current => 1
  | parent => 2
  | normal _ => 3

/-- The name of a normal component. -/
def name : Component → String
  | normal n => n
  | _ => ""

instance : Ord Component where
  compare a b := (compare a.rank b.rank).then (compare a.name b.name)

/-- The name, if this is a normal component. -/
def name? : Component → Option String
  | normal n => some n
  | _ => none

end Component

/-- A place in the file system: the names on the way from the root. -/
structure Location where
  names : List String
  deriving DecidableEq, Repr

/-- A path as it was written, if that is a text. -/
structure Path where
  text : String
  deriving Repr, Inhabited

namespace Path

/-- The component that a stretch between slashes stands for, unless it says nothing. -/
def component? (piece : List Char) : Option Component :=
  if piece = [] ∨ piece = ['.'] then none
  else if piece = ['.', '.'] then some .parent
  else some (.normal (String.ofList piece))

/-- What the text of a path says.  A dot counts only at the very start. -/
def componentsOf (text : List Char) : List Component :=
  let stretches := Text.pieces (· = '/') text
  let start :=
    if text.head? = some '/' then [.root]
    else if stretches.head? = some ['.'] then [.current]
    else []
  start ++ stretches.filterMap component?

def components (p : Path) : List Component := componentsOf p.text.toList

/-- Paths are the same when they have the same components. -/
instance : BEq Path where
  beq p q := p.components == q.components

instance : Ord Path where
  compare p q := compare p.components q.components

def isAbsolute (p : Path) : Bool := p.components.head? = some .root

/-- The last component, if it is a name. -/
def fileName? (p : Path) : Option String := p.components.getLast?.bind Component.name?

/-- What follows the last dot of a name, unless that dot is the name's first character. -/
def extensionOf? (name : List Char) : Option (List Char) :=
  let reversed := name.reverse
  match reversed.dropWhile (· ≠ '.') with
  | '.' :: _ :: _ => some (reversed.takeWhile (· ≠ '.')).reverse
  | _ => none

def extension? (p : Path) : Option (List Char) := p.fileName?.bind fun n => extensionOf? n.toList

/-- Named like a YAML file, in any mixture of upper and lower case. -/
def hasYamlExtension (p : Path) : Bool :=
  match p.extension? with
  | some e => let e := e.map Char.toLower; e = "yaml".toList || e = "yml".toList
  | none => false

end Path

/-! ### Locations -/

namespace Location

def root : Location := ⟨[]⟩

/-- One step from a location. -/
def step (l : Location) : Component → Location
  | .root => root
  | .current => l
  | .parent => ⟨l.names.dropLast⟩
  | .normal n => ⟨l.names ++ [n]⟩

/-- The entry `name` of this directory. -/
def child (l : Location) (name : String) : Location := ⟨l.names ++ [name]⟩

/-- The directory above; the root is its own. -/
def parent (l : Location) : Location := ⟨l.names.dropLast⟩

/-- The location itself and all directories above it, from the inside out. -/
def ancestors (l : Location) : List Location :=
  (List.range (l.names.length + 1)).map fun k => ⟨l.names.take (l.names.length - k)⟩

/-- The absolute path of a location. -/
def text (l : Location) : String := "/" ++ String.intercalate "/" l.names

def path (l : Location) : Path := ⟨l.text⟩

/-- The rest of the way from `base`, if this location lies there or below. -/
def below? (l base : Location) : Option (List String) :=
  if base.names.isPrefixOf l.names then some (l.names.drop base.names.length) else none

/-- Every location is the root, or it lies in another one. -/
@[elab_as_elim]
theorem child_induction {motive : Location → Prop} (root : motive .root)
    (child : ∀ l name, motive l → motive (l.child name)) (l : Location) : motive l := by
  suffices h : ∀ names : List String, motive ⟨names.reverse⟩ by
    simpa using h l.names.reverse
  intro names
  induction names with
  | nil => exact root
  | cons name names ih => simpa [Location.child] using child _ name ih

theorem ancestors_child (l : Location) (name : String) :
    (l.child name).ancestors = l.child name :: l.ancestors := by
  have htake (k : Nat) : (l.names ++ [name]).take (l.names.length - k)
      = l.names.take (l.names.length - k) :=
    List.take_append_of_le_length (Nat.sub_le ..)
  simp only [ancestors, child, List.length_append, List.length_singleton]
  rw [List.range_succ_eq_map, List.map_cons, List.map_map]
  congr 1
  · rw [Nat.sub_zero, List.take_of_length_le (by simp)]
  · apply List.map_congr_left
    intro k _
    simp only [Function.comp_apply, Nat.succ_eq_add_one, Nat.add_sub_add_right, htake]

theorem ancestors_eq_cons (l : Location) : ∃ above, l.ancestors = l :: above := by
  induction l using child_induction with
  | root => exact ⟨[], rfl⟩
  | child l name _ => exact ⟨_, ancestors_child l name⟩

theorem length_le_of_mem_ancestors {l d : Location} (h : d ∈ l.ancestors) :
    d.names.length ≤ l.names.length := by
  obtain ⟨k, -, rfl⟩ := List.mem_map.mp h
  simp

theorem nodup_ancestors (l : Location) : l.ancestors.Nodup := by
  induction l using child_induction with
  | root => exact List.pairwise_singleton ..
  | child l name ih =>
    rw [ancestors_child, List.nodup_cons]
    refine ⟨fun h => ?_, ih⟩
    have hlength := length_le_of_mem_ancestors h
    rw [child, List.length_append] at hlength
    exact absurd hlength (Nat.not_succ_le_self _)

/-- What lies above a directory does not depend on where the way to it began. -/
theorem eq_ancestors_of_suffix {l d : Location} {above : List Location}
    (h : d :: above <:+ l.ancestors) : d :: above = d.ancestors := by
  induction l using child_induction with
  | root =>
    rcases List.suffix_cons_iff.mp h with h | h
    · cases h; rfl
    · cases List.suffix_nil.mp h
  | child l name ih =>
    rw [ancestors_child] at h
    rcases List.suffix_cons_iff.mp h with h | h
    · cases h; exact (ancestors_child ..).symm
    · exact ih h

end Location

namespace Path

/-- The location a path denotes, seen from the directory `cwd`. -/
def resolve (cwd : Location) (p : Path) : Location := p.components.foldl Location.step cwd

/-- The path made absolute, with no dots left. -/
def normalize (cwd : Location) (p : Path) : Path := (p.resolve cwd).path

/-- The path without the current directory in front, or made absolute if it does not lie there. -/
def relativize (cwd : Location) (p : Path) : Path :=
  let l := p.resolve cwd
  match l.below? cwd with
  | some names => ⟨String.intercalate "/" names⟩
  | none => l.path

/-! ### Joining and parents, as texts -/

/-- The entry `name` of the directory that `p` names. -/
def join (p : Path) (name : String) : Path :=
  if p.text.isEmpty then ⟨name⟩
  else if p.text.toList.getLast? = some '/' then ⟨p.text ++ name⟩
  else ⟨p.text ++ "/" ++ name⟩

/-- The start of a path that no parent loses: the root, or a leading dot. -/
def anchorLength (text : List Char) : Nat :=
  match text with
  | '/' :: _ => 1
  | ['.'] => 1
  | '.' :: '/' :: _ => 1
  | _ => 0

/-- Without the stretches at the end that say nothing. -/
def dropSilent (stretches : List (List Char)) : List (List Char) :=
  (stretches.reverse.dropWhile fun s => s = [] ∨ s = ['.']).reverse

/-- The path without its last component, written as it was. -/
def parent? (p : Path) : Option Path :=
  let text := p.text.toList
  let anchor := text.take (anchorLength text)
  match dropSilent (Text.pieces (· = '/') (text.drop (anchorLength text))) with
  | [] => if anchor = ['.'] then some ⟨""⟩ else none
  | stretches =>
    some ⟨String.ofList (anchor ++ ['/'].intercalate (dropSilent stretches.dropLast))⟩

/-- The path and its parents, from the inside out; `n` bounds their number. -/
def ancestorsUpTo : Nat → Path → List Path
  | 0, p => [p]
  | n + 1, p => p :: (match p.parent? with
    | some q => ancestorsUpTo n q
    | none => [])

/-- The path and its parents, from the inside out.  A parent is always the shorter text. -/
def ancestors (p : Path) : List Path := ancestorsUpTo p.text.length p

end Path

end DocMark
