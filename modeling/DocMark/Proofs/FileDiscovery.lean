import DocMark.Discovery
import DocMark.Proofs.ConfigDiscovery
import DocMark.Proofs.DiagnosticOrder

/-!
# Which files are found

A given path that names a file is found, whatever its name is and whatever lists and patterns say,
for nothing is left out at a root.  All other files that are found lie in the tree below a given
directory, and they are called like YAML files.  What is found is in the order of paths, and errors
come behind it.

Main statements:

* `Walk.foundAt_of_mem_files` — what a walk finds below a place, by recursion over the tree;
* `Walk.rootFiles_of_file`, `Walk.mem_rootFiles_of_directory` — what a root has;
* `Environment.found_files` — what a search finds for many paths.
-/

namespace DocMark

/-! ### Entries below a directory -/

namespace FileTree

/-- The tree has this entry at the end of these names.  Links on the way are not followed. -/
inductive Has : FileTree → List String → FileTree → Prop
  | here (t : FileTree) : Has t [] t
  | inside {entries : List (String × FileTree)} {name : String} {child t : FileTree}
      {names : List String} (hchild : (name, child) ∈ entries) (h : Has child names t) :
      Has (directory entries) (name :: names) t

end FileTree

namespace Location

/-- The place that lies below this one at the end of these names. -/
def descend (l : Location) (names : List String) : Location := ⟨l.names ++ names⟩

theorem descend_nil (l : Location) : l.descend [] = l := by rw [descend, List.append_nil]

theorem descend_cons (l : Location) (name : String) (names : List String) :
    l.descend (name :: names) = (l.child name).descend names := by
  rw [descend, descend, child, List.append_assoc]
  rfl

end Location

namespace Path

/-- The name has the extension of YAML files, in any mixture of upper and lower case. -/
def CalledLikeYaml (p : Path) : Prop :=
  ∃ e, p.extension? = some e ∧
    (e.map Char.toLower = "yaml".toList ∨ e.map Char.toLower = "yml".toList)

theorem hasYamlExtension_iff (p : Path) : p.hasYamlExtension = true ↔ p.CalledLikeYaml := by
  unfold hasYamlExtension CalledLikeYaml
  cases p.extension? with
  | none => simp
  | some e => simp

end Path

/-! ### The walk -/

/-- The path is that of an entry of a tree that lies at this place, at the end of these names.  The
entry is no directory, and it is called like a YAML file. -/
structure FoundAt (l : Location) (tree : FileTree) (names : List String) (entry : FileTree)
    (file : Path) : Prop where
  has : tree.Has names entry
  not_directory : entry.isDirectory = false
  file_eq : file = (l.descend names).path
  called : file.CalledLikeYaml

namespace Walk

variable {w : Walk} {file : Path}

theorem foundAt_here {place : Place} {t : FileTree} (ht : t.isDirectory = false)
    (h : file ∈ if place.shown.path.hasYamlExtension then [place.shown.path] else []) :
    FoundAt place.shown t [] t file := by
  split at h
  · next hyaml =>
    cases List.mem_singleton.mp h
    exact ⟨.here t, ht, by rw [Location.descend_nil], (Path.hasYamlExtension_iff _).mp hyaml⟩
  · cases h

mutual

/-- What is found at a place is there. -/
theorem foundAt_of_mem_files {above : List DirectoryLists} {place : Place} {t : FileTree}
    (h : file ∈ w.files above place t) :
    ∃ names entry, FoundAt place.shown t names entry file := by
  cases t with
  | directory entries =>
    obtain ⟨name, names, entry, hfound⟩ := foundAt_of_mem_filesOf h
    exact ⟨name :: names, entry, hfound⟩
  | file bytes => exact ⟨[], _, foundAt_here rfl h⟩
  | link target => exact ⟨[], _, foundAt_here rfl h⟩

/-- What is found among the entries of a directory is one of them or lies below one. -/
theorem foundAt_of_mem_filesOf {above : List DirectoryLists} {place : Place}
    {entries : List (String × FileTree)} (h : file ∈ w.filesOf above place entries) :
    ∃ name names entry, FoundAt place.shown (.directory entries) (name :: names) entry file := by
  cases entries with
  | nil => cases h
  | cons e rest =>
    obtain ⟨name, child⟩ := e
    rcases List.mem_append.mp h with h | h
    · split at h
      · cases h
      · obtain ⟨names, entry, hfound⟩ := foundAt_of_mem_files h
        refine ⟨name, names, entry, .inside (List.mem_cons_self ..) hfound.has,
          hfound.not_directory, ?_, hfound.called⟩
        rw [hfound.file_eq, Location.descend_cons]
        rfl
    · obtain ⟨name', names, entry, hfound⟩ := foundAt_of_mem_filesOf h
      refine ⟨name', names, entry, ?_, hfound.not_directory, hfound.file_eq, hfound.called⟩
      cases hfound.has with
      | inside hchild hhas => exact .inside (List.mem_cons_of_mem _ hchild) hhas

end

/-! ### Roots -/

variable {root : Location} {t : FileTree}

theorem locate_of_node? {fs : FileSystem} {follow : Bool} {p : Path}
    (h : fs.node? follow p = .ok t) : ∃ l, fs.locate follow p = .ok l := by
  unfold FileSystem.node? at h
  split at h
  · cases h
  · next l hl => exact ⟨l, hl⟩

/-- A root that is no directory is found, whatever it is called. -/
theorem rootFiles_of_file (h : w.fs.node? true root.path = .ok t) (ht : t.isDirectory = false) :
    w.rootFiles root = [root.path] := by
  obtain ⟨real, hreal⟩ := locate_of_node? h
  unfold rootFiles
  rw [h, hreal]
  cases t with
  | directory entries => cases ht
  | file bytes => rfl
  | link target => rfl

/-- A root that is a directory has what the walk finds below it. -/
theorem mem_rootFiles_of_directory {entries : List (String × FileTree)}
    (h : w.fs.node? true root.path = .ok (.directory entries)) (hfile : file ∈ w.rootFiles root) :
    ∃ name names entry, FoundAt root (.directory entries) (name :: names) entry file := by
  obtain ⟨real, hreal⟩ := locate_of_node? h
  unfold rootFiles at hfile
  rw [h, hreal] at hfile
  exact foundAt_of_mem_filesOf hfile

theorem rootFiles_of_error {e : FileError} (h : w.fs.node? true root.path = .error e) :
    w.rootFiles root = [] := by
  unfold rootFiles
  rw [h]
  cases w.fs.locate true root.path <;> rfl

end Walk

/-! ### The search -/

/-- All that a search comes to, as one list. -/
def Discovery.entries (d : Discovery) : List (Except WalkError Path) :=
  d.files.map .ok ++ d.errors.map .error

/-- Paths come before errors, and among themselves in the order of paths. -/
inductive InListingOrder : Except WalkError Path → Except WalkError Path → Prop
  | files {f g : Path} (h : (compare f g).isLE) : InListingOrder (.ok f) (.ok g)
  | error (x : Except WalkError Path) (e : WalkError) : InListingOrder x (.error e)

theorem Discovery.pairwise_entries {d : Discovery}
    (h : d.files.Pairwise fun f g => (compare f g).isLE) : d.entries.Pairwise InListingOrder := by
  refine List.pairwise_append.mpr ⟨List.pairwise_map.mpr (h.imp .files), ?_, ?_⟩
  · exact List.pairwise_map.mpr (List.pairwise_of_forall fun _ e => .error _ e)
  · intro x _ y hy
    obtain ⟨e, -, rfl⟩ := List.mem_map.mp hy
    exact .error x e

namespace Environment

variable {env : Environment} {paths : List Path} {config : Option (Location × Settings)}
  {noDefaults : Bool} {p file : Path}

/-- The path names something that is there and is no directory. -/
def NamesFile (env : Environment) (p : Path) : Prop :=
  ∃ t, env.node? true (p.normalize env.cwd) = .ok t ∧ t.isDirectory = false

instance : Decidable (env.NamesFile p) :=
  match h : env.node? true (p.normalize env.cwd) with
  | .ok t =>
    if ht : t.isDirectory = false then isTrue ⟨t, h, ht⟩
    else isFalse fun ⟨_, hnode, hdir⟩ => ht (by cases h.symm.trans hnode; exact hdir)
  | .error _ => isFalse fun ⟨_, hnode, _⟩ => by cases h.symm.trans hnode

/-- The file lies strictly below the directory that the path names.  It is no directory, and it is
called like a YAML file. -/
def HasBelow (env : Environment) (p file : Path) : Prop :=
  ∃ entries name names entry, env.node? true (p.normalize env.cwd) = .ok (.directory entries)
    ∧ FoundAt (p.resolve env.cwd) (.directory entries) (name :: names) entry file

/-- The files of all roots, sorted. -/
theorem files_findFiles (env : Environment) (paths : List Path)
    (config : Option (Location × Settings)) (noDefaults : Bool) :
    (env.findFiles paths config noDefaults).files =
      (paths.flatMap fun p => (env.walkFor config noDefaults).rootFiles
        (p.resolve env.cwd)).mergeSort Discovery.pathLe := by
  unfold findFiles
  cases paths with
  | nil => exact List.mergeSort_nil.symm
  | cons p ps =>
    simp only [List.isEmpty_cons, Bool.false_eq_true, if_false, List.flatMap_map]

theorem mem_findFiles_iff :
    file ∈ (env.findFiles paths config noDefaults).files ↔
      ∃ p ∈ paths, file ∈ (env.walkFor config noDefaults).rootFiles (p.resolve env.cwd) := by
  rw [files_findFiles, (List.mergeSort_perm _ _).mem_iff, List.mem_flatMap]

theorem mem_findFiles_of_namesFile (hp : p ∈ paths) (h : env.NamesFile p) :
    p.normalize env.cwd ∈ (env.findFiles paths config noDefaults).files := by
  obtain ⟨t, hnode, ht⟩ := h
  have hroot : (env.walkFor config noDefaults).rootFiles (p.resolve env.cwd)
      = [p.normalize env.cwd] := Walk.rootFiles_of_file hnode ht
  refine mem_findFiles_iff.mpr ⟨p, hp, ?_⟩
  rw [hroot]
  exact List.mem_singleton.mpr rfl

theorem namesFile_or_hasBelow (h : file ∈ (env.findFiles paths config noDefaults).files) :
    ∃ p ∈ paths, (env.NamesFile p ∧ file = p.normalize env.cwd) ∨ env.HasBelow p file := by
  obtain ⟨p, hp, hfile⟩ := mem_findFiles_iff.mp h
  refine ⟨p, hp, ?_⟩
  have hnode : ∃ x, (env.walkFor config noDefaults).fs.node? true (p.resolve env.cwd).path = x :=
    ⟨_, rfl⟩
  obtain ⟨_ | t, hnode⟩ := hnode
  · rw [Walk.rootFiles_of_error hnode] at hfile
    cases hfile
  · cases ht : t.isDirectory with
    | false =>
      rw [Walk.rootFiles_of_file hnode ht] at hfile
      exact .inl ⟨⟨t, hnode, ht⟩, List.mem_singleton.mp hfile⟩
    | true =>
      cases t with
      | directory entries =>
        obtain ⟨name, names, entry, hfound⟩ := Walk.mem_rootFiles_of_directory hnode hfile
        exact .inr ⟨entries, name, names, entry, hnode, hfound⟩
      | file bytes => cases ht
      | link target => cases ht

theorem sorted_findFiles : ((env.findFiles paths config noDefaults).files).Pairwise
    fun f g => (compare f g).isLE := by
  rw [files_findFiles]
  exact List.pairwise_mergeSort (fun _ _ _ => Std.TransCmp.isLE_trans) isLE_compare_total _

/-- Whatever the surroundings and the settings are, every given path that names a file is found;
every other file that is found lies below a given directory, is no directory itself, and is called
like a YAML file; and the files that are found come in the order of paths, before all errors. -/
theorem found_files (env : Environment) (paths : List Path) (config : Option (Location × Settings))
    (noDefaults : Bool) :
    let d := env.findFiles paths config noDefaults
    (∀ p ∈ paths, env.NamesFile p → p.normalize env.cwd ∈ d.files)
    ∧ (∀ file ∈ d.files, (∃ p ∈ paths, env.NamesFile p ∧ file = p.normalize env.cwd)
        ∨ ∃ p ∈ paths, env.HasBelow p file)
    ∧ d.entries.Pairwise InListingOrder := by
  refine ⟨fun p hp => mem_findFiles_of_namesFile hp, fun file hfile => ?_,
    Discovery.pairwise_entries sorted_findFiles⟩
  obtain ⟨p, hp, h | h⟩ := namesFile_or_hasBelow hfile
  · exact .inl ⟨p, hp, h⟩
  · exact .inr ⟨p, hp, h⟩

/-- A note with a dot in front is found although version control ignores everything and the settings
exclude everything. -/
theorem found_files_hidden_note :
    let env := withFiles [([".git", "HEAD"], ""), ([".gitignore"], "*\n"), ([".note"], "a: b\n"),
      (["sub", "a.YML"], "a: b\n")]
    let note : Path := ⟨"sub/../.note"⟩
    let d := env.findFiles [⟨"sub"⟩, note] (some (.root, { exclude := some ["*"] })) false
    env.NamesFile note ∧ note.normalize env.cwd ∈ d.files ∧ d.entries.Pairwise InListingOrder := by
  intro env note d
  have hnote : env.NamesFile note := by decide +kernel
  obtain ⟨hgiven, -, horder⟩ :=
    found_files env [⟨"sub"⟩, note] (some (.root, { exclude := some ["*"] })) false
  exact ⟨hnote, hgiven note (List.mem_cons_of_mem _ (List.mem_singleton_self _)) hnote, horder⟩

end Environment

end DocMark
