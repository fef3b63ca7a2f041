import Mathlib.Data.List.Perm.Basic
import DocMark.Proofs.FileDiscovery
import DocMark.Proofs.NormalPaths
import DocMark.Proofs.ReportOrder
import DocMark.Proofs.RunStatus

/-!
# How often a file is found

Every given path is searched on its own, and what is found is put together.  In a *sound* tree,
where the entries of a directory differ in their names, one path never leads to a file twice.  So a
file is listed once for each given path that leads to it, and only paths that overlap lead to the
same file: two ways of writing one location, or a directory and something below it.

Main statements:

* `FileTree.isSound_put` — trees that are built file by file are sound;
* `Walk.eachOnce_rootFiles` — a root leads to a file at most once;
* `Environment.files_counted_by_paths` — how often a file is listed, and what follows for a report.
-/

namespace DocMark

/-! ### Sound trees -/

namespace FileTree

/-- In each directory of the tree the entries have different names, and these are names that entries
can have. -/
def IsSound (t : FileTree) : Prop :=
  ∀ names entries, t.Has names (directory entries) →
    (entries.map (·.1)).Nodup ∧ ∀ e ∈ entries, IsEntryName e.1

variable {t u : FileTree} {entries : List (String × FileTree)} {name : String}
  {names : List String}

theorem isSound_of_isDirectory (h : t.isDirectory = false) : t.IsSound := by
  intro names entries hhas
  cases hhas with
  | here => cases h
  | inside => cases h

theorem isSound_directory_iff : (directory entries).IsSound ↔
    (entries.map (·.1)).Nodup ∧ ∀ e ∈ entries, IsEntryName e.1 ∧ e.2.IsSound := by
  constructor
  · intro h
    obtain ⟨hnodup, hnames⟩ := h [] entries (.here _)
    exact ⟨hnodup, fun e he =>
      ⟨hnames e he, fun names entries hhas => h (e.1 :: names) entries (.inside he hhas)⟩⟩
  · rintro ⟨hnodup, hentries⟩ names entries' hhas
    cases hhas with
    | here => exact ⟨hnodup, fun e he => (hentries e he).1⟩
    | inside hchild hhas => exact (hentries _ hchild).2 _ _ hhas

theorem IsSound.tail {e : String × FileTree} (h : (directory (e :: entries)).IsSound) :
    (directory entries).IsSound := by
  obtain ⟨hnodup, hentries⟩ := isSound_directory_iff.mp h
  exact isSound_directory_iff.mpr
    ⟨(List.nodup_cons.mp hnodup).2, fun e he => hentries e (List.mem_cons_of_mem _ he)⟩

theorem IsSound.directory_entries (h : t.IsSound) : (directory t.entries).IsSound := by
  cases t with
  | directory entries => exact h
  | file bytes => exact isSound_directory_iff.mpr ⟨List.nodup_nil, nofun⟩
  | link target => exact isSound_directory_iff.mpr ⟨List.nodup_nil, nofun⟩

theorem mem_entries_of_child? (h : t.child? name = some u) : (name, u) ∈ t.entries := by
  obtain ⟨⟨found, entry⟩, hfound, rfl⟩ := Option.map_eq_some_iff.mp h
  have hname : found = name := by simpa using List.find?_some hfound
  exact hname ▸ List.mem_of_find?_eq_some hfound

theorem IsSound.child? (h : t.IsSound) (hchild : t.child? name = some u) : u.IsSound :=
  ((isSound_directory_iff.mp h.directory_entries).2 _ (mem_entries_of_child? hchild)).2

/-- What is at a place of a sound tree is sound. -/
theorem IsSound.at? (h : t.IsSound) (hat : t.at? names = some u) : u.IsSound := by
  induction names generalizing t with
  | nil =>
    cases hat
    exact h
  | cons name names ih =>
    rw [FileTree.at?, List.foldl_cons, Option.bind_some] at hat
    cases hchild : t.child? name with
    | none =>
      rw [hchild, List.foldl_fixed' fun _ => rfl] at hat
      cases hat
    | some child =>
      rw [hchild] at hat
      exact ih (h.child? hchild) hat

/-- The names on a way through a sound tree are names of entries. -/
theorem IsSound.isEntryName (h : t.IsSound) (hhas : t.Has names u) :
    ∀ name ∈ names, IsEntryName name := by
  induction hhas with
  | here => nofun
  | inside hchild _ ih =>
    obtain ⟨hname, hsound⟩ := (isSound_directory_iff.mp h).2 _ hchild
    exact List.forall_mem_cons.mpr ⟨hname, ih hsound⟩

/-- A tree stays sound when something sound is put in under names of entries. -/
theorem isSound_put (hu : u.IsSound) (hnames : ∀ name ∈ names, IsEntryName name) (h : t.IsSound) :
    (put u names t).IsSound := by
  induction names generalizing t with
  | nil => exact hu
  | cons name names ih =>
    obtain ⟨hname, hnames⟩ := List.forall_mem_cons.mp hnames
    obtain ⟨hnodup, hentries⟩ := isSound_directory_iff.mp h.directory_entries
    have hchild : (put u names ((t.child? name).getD (directory []))).IsSound := by
      apply ih hnames
      cases hchild : t.child? name with
      | none => exact isSound_directory_iff.mpr ⟨List.nodup_nil, nofun⟩
      | some child => exact h.child? hchild
    refine isSound_directory_iff.mpr ⟨?_, ?_⟩
    · -- What had this name before has made room.
      rw [List.map_append, List.map_singleton, List.nodup_append]
      refine ⟨hnodup.sublist (List.filter_sublist.map _), List.nodup_singleton _, ?_⟩
      rintro _ hother _ hnew rfl
      obtain ⟨e, he, rfl⟩ := List.mem_map.mp hother
      exact of_decide_eq_true (List.mem_filter.mp he).2 (List.mem_singleton.mp hnew)
    · intro e he
      rcases List.mem_append.mp he with he | he
      · exact hentries e (List.mem_filter.mp he).1
      · cases List.mem_singleton.mp he
        exact ⟨hname, hchild⟩

end FileTree

/-! ### Files that are there once -/

/-- No two of the paths say the same. -/
def EachOnce (files : List Path) : Prop := files.Pairwise fun f g => ¬ f == g

instance (files : List Path) : Decidable (EachOnce files) :=
  inferInstanceAs (Decidable (files.Pairwise _))

theorem EachOnce.perm {files files' : List Path} (h : files.Perm files') (hfiles : EachOnce files) :
    EachOnce files' :=
  h.pairwise hfiles fun hne hbeq => hne (Path.beq_symm hbeq)

/-- Of files that are there once, a path is one or none. -/
theorem EachOnce.countP_eq {files : List Path} (h : EachOnce files) (file : Path) :
    files.countP (· == file) = if files.any (· == file) then 1 else 0 := by
  induction files with
  | nil => rfl
  | cons f files ih =>
    obtain ⟨hf, hfiles⟩ := List.pairwise_cons.mp h
    by_cases hbeq : f == file
    · have hrest : files.countP (· == file) = 0 :=
        List.countP_eq_zero.mpr fun g hg hgfile =>
          hf g hg (Path.beq_trans hbeq (Path.beq_symm hgfile))
      simp [hbeq, hrest]
    · simp [hbeq, ih hfiles]

namespace Location

variable {l : Location} {names names' : List String}

theorem isNormal_descend (hl : l.IsNormal) (hnames : ∀ name ∈ names, IsEntryName name) :
    (l.descend names).IsNormal :=
  List.forall_mem_append.mpr ⟨hl, hnames⟩

/-- Different ways from one place lead to files with different paths. -/
theorem eq_of_path_descend_beq (hl : l.IsNormal) (hnames : ∀ name ∈ names, IsEntryName name)
    (hnames' : ∀ name ∈ names', IsEntryName name)
    (h : (l.descend names).path == (l.descend names').path) : names = names' := by
  have hsame := Path.path_injective (isNormal_descend hl hnames) (isNormal_descend hl hnames')
    ((Path.beq_iff _ _).mp h)
  rw [descend, descend, Location.mk.injEq] at hsame
  exact List.append_cancel_left hsame

end Location

namespace Walk

variable {w : Walk} {file : Path}

theorem eachOnce_ite (p : Bool) (file : Path) : EachOnce (if p then [file] else []) := by
  cases p
  · exact List.Pairwise.nil
  · exact List.pairwise_singleton _ _

mutual

/-- A walk over a sound tree finds no file twice. -/
theorem eachOnce_files {above : List DirectoryLists} {place : Place} (t : FileTree)
    (ht : t.IsSound) (hplace : place.shown.IsNormal) : EachOnce (w.files above place t) := by
  cases t with
  | directory entries => exact eachOnce_filesOf entries ht hplace
  | file bytes => exact eachOnce_ite _ _
  | link target => exact eachOnce_ite _ _

theorem eachOnce_filesOf {above : List DirectoryLists} {directory : Place}
    (entries : List (String × FileTree)) (ht : (FileTree.directory entries).IsSound)
    (hplace : directory.shown.IsNormal) : EachOnce (w.filesOf above directory entries) := by
  cases entries with
  | nil => exact List.Pairwise.nil
  | cons e rest =>
    obtain ⟨name, entry⟩ := e
    obtain ⟨hnodup, hentries⟩ := FileTree.isSound_directory_iff.mp ht
    obtain ⟨hname, hentry⟩ := hentries _ (List.mem_cons_self ..)
    refine List.pairwise_append.mpr ⟨?_, eachOnce_filesOf rest ht.tail hplace, ?_⟩
    · split
      · exact List.Pairwise.nil
      · exact eachOnce_files entry hentry
          (List.forall_mem_append.mpr ⟨hplace, List.forall_mem_singleton.mpr hname⟩)
    · -- What lies below the first entry and what lies below another part at their names.
      intro f hf g hg hbeq
      split at hf
      · cases hf
      · obtain ⟨names, found, hf⟩ := foundAt_of_mem_files hf
        obtain ⟨name', names', found', hg⟩ := foundAt_of_mem_filesOf hg
        have hfile : f = (directory.shown.descend (name :: names)).path := by
          rw [hf.file_eq, Location.descend_cons]
          rfl
        rw [hfile, hg.file_eq] at hbeq
        have hsame := Location.eq_of_path_descend_beq hplace
          (List.forall_mem_cons.mpr ⟨hname, hentry.isEntryName hf.has⟩)
          (ht.tail.isEntryName hg.has) hbeq
        cases (List.cons.inj hsame).1
        cases hg.has with
        | inside hchild => exact (List.nodup_cons.mp hnodup).1 (List.mem_map.mpr ⟨_, hchild, rfl⟩)

end

variable {root : Location}

theorem isSound_of_node? {fs : FileSystem} {follow : Bool} {p : Path} {t : FileTree}
    (hfs : fs.tree.IsSound) (h : fs.node? follow p = .ok t) : t.IsSound := by
  unfold FileSystem.node? at h
  split at h
  · cases h
  · split at h
    · next hat =>
      cases h
      exact hfs.at? hat
    · cases h

/-- A root leads to a file at most once. -/
theorem eachOnce_rootFiles (hfs : w.fs.tree.IsSound) (hroot : root.IsNormal) :
    EachOnce (w.rootFiles root) := by
  unfold rootFiles
  split
  · next hnode => exact eachOnce_files _ (isSound_of_node? hfs hnode) hroot
  · exact List.pairwise_singleton _ _
  · exact List.Pairwise.nil

/-- What a root leads to lies at the root or below it. -/
theorem exists_descend_of_mem_rootFiles (hfs : w.fs.tree.IsSound) (h : file ∈ w.rootFiles root) :
    ∃ names, (∀ name ∈ names, IsEntryName name) ∧ file = (root.descend names).path := by
  unfold rootFiles at h
  split at h
  · next hnode =>
    obtain ⟨names, entry, hfound⟩ := foundAt_of_mem_files h
    exact ⟨names, (isSound_of_node? hfs hnode).isEntryName hfound.has, hfound.file_eq⟩
  · refine ⟨[], nofun, ?_⟩
    rw [List.mem_singleton.mp h, Location.descend_nil]
  · cases h

end Walk

/-! ### The search -/

/-- One of the paths leads to the other: both denote one location, or one lies below the other. -/
def Path.Overlaps (cwd : Location) (p q : Path) : Prop :=
  (p.resolve cwd).names <+: (q.resolve cwd).names ∨ (q.resolve cwd).names <+: (p.resolve cwd).names

instance (cwd : Location) (p q : Path) : Decidable (p.Overlaps cwd q) :=
  inferInstanceAs (Decidable (_ ∨ _))

/-- The way to a file goes through each place that it lies below. -/
theorem Location.prefix_of_path_descend_beq {l l' : Location} (hl : l.IsNormal) (hl' : l'.IsNormal)
    {names names' : List String} (hnames : ∀ name ∈ names, IsEntryName name)
    (hnames' : ∀ name ∈ names', IsEntryName name)
    (h : (l.descend names).path == (l'.descend names').path) :
    l.names <+: l'.names ∨ l'.names <+: l.names := by
  have hsame := Path.path_injective (isNormal_descend hl hnames) (isNormal_descend hl' hnames')
    ((Path.beq_iff _ _).mp h)
  rw [descend, descend, Location.mk.injEq] at hsame
  exact List.prefix_or_prefix_of_prefix ⟨names, hsame⟩ ⟨names', rfl⟩

/-- The diagnostics of one file among those of files with different names. -/
theorem FileResult.filter_flatMap_of_apart {results : List FileResult} (hnamed : Named results)
    (hapart : results.Pairwise Apart) {r : FileResult} (hr : r ∈ results) :
    (results.flatMap (·.diagnostics)).filter (·.file == r.file) = r.diagnostics := by
  induction results with
  | nil => cases hr
  | cons s results ih =>
    obtain ⟨hs, hapart⟩ := List.pairwise_cons.mp hapart
    obtain ⟨hown, hrest⟩ := List.forall_mem_cons.mp hnamed
    rw [List.flatMap_cons, List.filter_append]
    rcases List.mem_cons.mp hr with rfl | hr
    · have hall : r.diagnostics.filter (·.file == r.file) = r.diagnostics :=
        List.filter_eq_self.mpr fun d hd => by rw [hown d hd]; exact (Path.beq_iff _ _).mpr rfl
      have hothers : (results.flatMap (·.diagnostics)).filter (·.file == r.file) = [] := by
        refine List.filter_eq_nil_iff.mpr fun d hd hbeq => ?_
        obtain ⟨t, ht, hd⟩ := List.mem_flatMap.mp hd
        rw [hrest t ht d hd] at hbeq
        exact hs t ht (Path.beq_symm hbeq)
      rw [hall, hothers, List.append_nil]
    · have hnone : s.diagnostics.filter (·.file == r.file) = [] :=
        List.filter_eq_nil_iff.mpr fun d hd hbeq => by
          rw [hown d hd] at hbeq
          exact hs r hr hbeq
      rw [hnone, List.nil_append]
      exact ih hrest hapart hr

namespace Environment

variable {env : Environment} {paths : List Path} {config : Option (Location × Settings)}
  {noDefaults : Bool}

theorem files_findFiles_singleton_perm (p : Path) :
    (env.findFiles [p] config noDefaults).files.Perm
      ((env.walkFor config noDefaults).rootFiles (p.resolve env.cwd)) := by
  rw [files_findFiles, List.flatMap_singleton]
  exact List.mergeSort_perm _ _

/-- A search along many paths finds what searches along each of them find. -/
theorem files_findFiles_perm (paths : List Path) :
    (env.findFiles paths config noDefaults).files.Perm
      (paths.flatMap fun p => (env.findFiles [p] config noDefaults).files) := by
  rw [files_findFiles]
  refine (List.mergeSort_perm _ _).trans (List.Perm.flatMap_left paths fun p _ => ?_)
  exact (files_findFiles_singleton_perm p).symm

theorem eachOnce_findFiles_singleton (htree : env.tree.IsSound) (hcwd : env.cwd.IsNormal)
    (p : Path) : EachOnce (env.findFiles [p] config noDefaults).files :=
  (Walk.eachOnce_rootFiles htree (Path.isNormal_resolve hcwd p)).perm
    (files_findFiles_singleton_perm p).symm

theorem countP_files_findFiles (htree : env.tree.IsSound) (hcwd : env.cwd.IsNormal)
    (paths : List Path) (file : Path) :
    (env.findFiles paths config noDefaults).files.countP (· == file) =
      paths.countP fun p => (env.findFiles [p] config noDefaults).files.any (· == file) := by
  rw [(files_findFiles_perm paths).countP_eq, List.countP_flatMap]
  induction paths with
  | nil => rfl
  | cons p paths ih =>
    rw [List.map_cons, List.sum_cons, ih, List.countP_cons, Nat.add_comm]
    congr 1
    exact (eachOnce_findFiles_singleton htree hcwd p).countP_eq file

theorem exists_descend_of_mem_findFiles (htree : env.tree.IsSound) {p file : Path}
    (h : file ∈ (env.findFiles [p] config noDefaults).files) :
    ∃ names, (∀ name ∈ names, IsEntryName name)
      ∧ file = ((p.resolve env.cwd).descend names).path :=
  Walk.exists_descend_of_mem_rootFiles (w := env.walkFor config noDefaults) htree
    ((files_findFiles_singleton_perm p).mem_iff.mp h)

theorem eachOnce_findFiles (htree : env.tree.IsSound) (hcwd : env.cwd.IsNormal)
    (h : paths.Pairwise fun p q => ¬ p.Overlaps env.cwd q) :
    EachOnce (env.findFiles paths config noDefaults).files := by
  refine EachOnce.perm (files_findFiles_perm paths).symm (List.pairwise_flatMap.mpr ⟨?_, ?_⟩)
  · exact fun p _ => eachOnce_findFiles_singleton htree hcwd p
  · refine h.imp fun {p q} hapart f hf g hg hbeq => ?_
    obtain ⟨names, hnames, rfl⟩ := exists_descend_of_mem_findFiles htree hf
    obtain ⟨names', hnames', rfl⟩ := exists_descend_of_mem_findFiles htree hg
    exact hapart (Location.prefix_of_path_descend_beq (Path.isNormal_resolve hcwd p)
      (Path.isNormal_resolve hcwd q) hnames hnames' hbeq)

/-- The search lists absolute paths of normal locations. -/
theorem exists_path_of_mem_findFiles (htree : env.tree.IsSound) (hcwd : env.cwd.IsNormal)
    {file : Path} (h : file ∈ (env.findFiles paths config noDefaults).files) :
    ∃ l : Location, l.IsNormal ∧ file = l.path := by
  obtain ⟨p, -, h⟩ := List.mem_flatMap.mp ((files_findFiles_perm paths).mem_iff.mp h)
  obtain ⟨names, hnames, rfl⟩ := exists_descend_of_mem_findFiles htree h
  exact ⟨_, Location.isNormal_descend (Path.isNormal_resolve hcwd p) hnames, rfl⟩

/-- Different files are shown under different names. -/
theorem apart_checkFiles (hcwd : env.cwd.IsNormal) {files : List Path} (hfiles : EachOnce files)
    (hnormal : ∀ file ∈ files, ∃ l : Location, l.IsNormal ∧ file = l.path) (c : Config) :
    (env.checkFiles c files).Pairwise FileResult.Apart := by
  refine List.pairwise_map.mpr (hfiles.imp_of_mem fun {f g} hf hg hne hbeq => hne ?_)
  obtain ⟨l, hl, rfl⟩ := hnormal f hf
  obtain ⟨l', hl', rfl⟩ := hnormal g hg
  have hsame := (Path.components_relativize_eq_iff hcwd _ _).mp ((Path.beq_iff _ _).mp hbeq)
  rw [Path.normalize, Path.normalize, Path.resolve_path hl, Path.resolve_path hl'] at hsame
  exact (Path.beq_iff _ _).mpr hsame

/-- In a sound tree a file is listed as often as there are given paths that lead to it, each taken
alone.  If none of the given paths overlap, each file is listed once, no two results have one name,
and the report has of each file the diagnostics of one check. -/
theorem files_counted_by_paths (env : Environment) (htree : env.tree.IsSound)
    (hcwd : env.cwd.IsNormal) (paths : List Path) (config : Option (Location × Settings))
    (noDefaults : Bool) :
    let files := (env.findFiles paths config noDefaults).files
    (∀ file, files.countP (· == file) =
      paths.countP fun p => (env.findFiles [p] config noDefaults).files.any (· == file))
    ∧ ((paths.Pairwise fun p q => ¬ p.Overlaps env.cwd q) → EachOnce files
      ∧ ∀ c, let results := env.checkFiles c files
        results.Pairwise FileResult.Apart
        ∧ ∀ r ∈ results, ((Report.ofResults results).diagnostics.filter (·.file == r.file)).Perm
            r.diagnostics) := by
  refine ⟨countP_files_findFiles htree hcwd paths, fun hpaths => ?_⟩
  have hfiles : EachOnce (env.findFiles paths config noDefaults).files :=
    eachOnce_findFiles htree hcwd hpaths
  refine ⟨hfiles, fun c => ?_⟩
  have hapart := apart_checkFiles hcwd hfiles
    (fun file => exists_path_of_mem_findFiles htree hcwd) c
  refine ⟨hapart, fun r hr => ?_⟩
  have hown := FileResult.filter_flatMap_of_apart (FileResult.named_checkFiles _ c _) hapart hr
  exact hown ▸ (Diagnostic.sort_perm _).filter _

theorem isSound_withFiles {files : List (List String × String)}
    (h : ∀ f ∈ files, ∀ name ∈ f.1, IsEntryName name) : (withFiles files).tree.IsSound := by
  suffices hput : ∀ t : FileTree, t.IsSound →
      (files.foldl (fun t f => .put (.file f.2.toUTF8) f.1 t) t).IsSound from
    hput _ (FileTree.isSound_directory_iff.mpr ⟨List.nodup_nil, nofun⟩)
  induction files with
  | nil => exact fun _ ht => ht
  | cons f files ih =>
    obtain ⟨hf, hfiles⟩ := List.forall_mem_cons.mp h
    exact fun t ht => ih hfiles _ (FileTree.isSound_put (FileTree.isSound_of_isDirectory rfl) hf ht)

/-- A file beside a directory that holds it is listed twice; a directory and a file elsewhere do not
overlap. -/
theorem files_counted_by_paths_nested :
    let env := withFiles [(["sub", "a.yaml"], "k: v\n"), (["b.yaml"], "k: v\n")]
    let nested : List Path := [⟨"sub"⟩, ⟨"./sub/../sub/a.yaml"⟩]
    env.tree.IsSound ∧ env.cwd.IsNormal
      ∧ (env.findFiles nested none false).files.countP (· == ⟨"/sub/a.yaml"⟩) = 2
      ∧ EachOnce (env.findFiles [⟨"sub"⟩, ⟨"b.yaml"⟩] none false).files := by
  intro env nested
  have htree : env.tree.IsSound := isSound_withFiles (by decide +kernel)
  have hcwd : env.cwd.IsNormal := by decide
  refine ⟨htree, hcwd, ?_, ?_⟩
  · rw [(files_counted_by_paths env htree hcwd nested none false).1]
    decide +kernel
  · exact ((files_counted_by_paths env htree hcwd _ none false).2
      (List.pairwise_pair.mpr (by decide +kernel))).1

/-- Two ways of writing one path list its file twice, and what is found in it is reported twice. -/
theorem spelled_twice_listed_twice :
    let env := withFile "a.yaml" "k: v\n"
    let files := (env.findFiles [⟨"a.yaml"⟩, ⟨"./a.yaml"⟩] none false).files
    env.tree.IsSound ∧ env.cwd.IsNormal ∧ ¬ EachOnce files
      ∧ (Report.ofResults (env.checkFiles ⟨.defaults, {}⟩ files)).diagnostics.length = 2 := by
  intro env files
  have hperm : files.Perm _ := files_findFiles_perm [⟨"a.yaml"⟩, ⟨"./a.yaml"⟩]
  refine ⟨?_, by decide, mt (EachOnce.perm hperm) (by decide +kernel), ?_⟩
  · refine FileTree.isSound_directory_iff.mpr ⟨List.nodup_singleton _, ?_⟩
    exact List.forall_mem_singleton.mpr ⟨by decide +kernel, FileTree.isSound_of_isDirectory rfl⟩
  · have hresults := (hperm.map (env.checkFile ⟨.defaults, {}⟩)).flatMap_right (·.diagnostics)
    rw [Report.ofResults, (Diagnostic.sort_perm _).length_eq, FileSystem.checkFiles,
      hresults.length_eq]
    decide +kernel

end Environment

end DocMark
