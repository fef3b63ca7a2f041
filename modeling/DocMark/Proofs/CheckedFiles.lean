import DocMark.Proofs.FileDiscovery
import DocMark.Proofs.LintReport
import DocMark.Proofs.RunOutput

/-!
# What a run has looked at

A file is *handled* when its text was read and is a sequence of tokens; of a file that is silent as
a whole the text is enough.  A run that finds files ends with an error exactly when it could not
handle one of them, and so a run that ends in another way has handled all it has found, the given
files among them.

A path that leads nowhere is not one of these files.  The search warns of it, and it has no other
part in the run.

Main statements:

* `failed_checkFile_iff` — one file;
* `code_eq_two_iff_of_checks` — all files of a run;
* `handled_unless_error` — what a run says about the given paths by not ending with an error.
-/

namespace DocMark

/-- Only a text that has no tokens cannot be linted, unless it is silent as a whole. -/
theorem exists_lint_eq_error_iff (config : Config) (file : Path) (text : List Char) :
    (∃ e, lint config file text = .error e)
      ↔ ¬ (SilentFile text ∨ ∃ tokens, tokenize text = .ok tokens) := by
  rw [← skipsFile_ofText_iff]
  by_cases hsilent : (Suppression.ofText text).skipsFile = true
  · simp [lint, hsilent]
  · cases htokens : tokenize text with
    | error e => simp [lint, hsilent, htokens]
    | ok tokens => simp [lint, hsilent, htokens]

namespace FileSystem

/-- The file was read under the name that is shown for it, and its text is silent as a whole or a
sequence of tokens. -/
def Handles (fs : FileSystem) (file : Path) : Prop :=
  ∃ text, fs.read (file.relativize fs.cwd) = .ok text
    ∧ (SilentFile text ∨ ∃ tokens, tokenize text = .ok tokens)

theorem failed_checkFile_iff (fs : FileSystem) (config : Config) (file : Path) :
    (fs.checkFile config file).Failed ↔ ¬ fs.Handles file := by
  show (∃ e, fs.checkNamed config (file.relativize fs.cwd) = .error e) ↔ _
  unfold checkNamed Handles
  cases fs.read (file.relativize fs.cwd) with
  | error e => simp
  | ok text =>
    have hlint := exists_lint_eq_error_iff config (file.relativize fs.cwd) text
    cases h : lint config (file.relativize fs.cwd) text with
    | error e => simpa [h] using hlint
    | ok ds => simpa [h] using hlint

end FileSystem

namespace Environment

variable {env : Environment} {q : Request} {found : List FoundConfig} {results : List FileResult}
  {p : Path} {e : FileError}

/-! ### Paths that lead nowhere -/

/-- A root that cannot be walked is among the errors of the search. -/
theorem mem_errors_of_unreachable {paths : List Path} {config : Option (Location × Settings)}
    {noDefaults : Bool} (hp : p ∈ paths) (h : env.node? true (p.normalize env.cwd) = .error e) :
    .unreachable (p.normalize env.cwd) e ∈ (env.findFiles paths config noDefaults).errors := by
  have hroot : (env.walkFor config noDefaults).unreachable? (p.resolve env.cwd)
      = some (.unreachable (p.normalize env.cwd) e) := by
    have hnode : (env.walkFor config noDefaults).fs.node? true (p.resolve env.cwd).path
        = .error e := h
    rw [Walk.unreachable?, hnode]
    rfl
  have hpaths : paths.isEmpty = false :=
    List.isEmpty_eq_false_iff.mpr (List.ne_nil_of_mem hp)
  simp only [findFiles, hpaths, Bool.false_eq_true, if_false]
  exact List.mem_append_left _
    (List.mem_filterMap.mpr ⟨_, List.mem_map.mpr ⟨p, hp, rfl⟩, hroot⟩)

/-- What is said of a path that leads nowhere. -/
def walkWarning (env : Environment) (p : Path) (e : FileError) : String :=
  "Failed to walk path: " ++ ((p.normalize env.cwd).text ++ ": " ++ e.text)

theorem walkWarning_mem_searchNotices (hp : p ∈ q.paths)
    (h : env.node? true (p.normalize env.cwd) = .error e) :
    .warning (env.walkWarning p e) ∈ env.searchNotices q found := by
  have herror : .unreachable (p.normalize env.cwd) e ∈ (env.filesFor q found.head?).errors :=
    mem_errors_of_unreachable hp h
  have hwarning := List.mem_map_of_mem
    (f := fun e : WalkError => Notice.warning ("Failed to walk path: " ++ e.text)) herror
  exact List.mem_append_right _ (List.mem_append_right _ hwarning)

/-! ### The run -/

section Run

variable {args : List String} {i : Invocation} (colour : Bool) (elapsed : String)

theorem code_eq_two_iff_of_checks (h : Invocation.ofArgs args = .ok i)
    (hchecks : env.Checks i.request found results) :
    (env.program colour elapsed args).code = 2
      ↔ ∃ file ∈ (env.filesFor i.request found.head?).files, ¬ env.Handles file := by
  obtain ⟨config, -, rfl⟩ := hchecks.checked
  have hstatus (s : ExitStatus) : s.code = 2 ↔ s = .error := by cases s <;> decide
  rw [code_of_checks colour elapsed h hchecks, hstatus, statusFor_eq_error_iff]
  simp only [FileSystem.checkFiles, List.mem_map, exists_exists_and_eq_and,
    FileSystem.failed_checkFile_iff]

/-- A run that does not end with an error has found no files or has checked those it found. -/
theorem findsNothing_or_checks_of_code (h : Invocation.ofArgs args = .ok i)
    (hcode : (env.program colour elapsed args).code ≠ 2) :
    ∃ found results, env.FindsNothing i.request found ∨ env.Checks i.request found results := by
  rw [code_program env colour elapsed h, Run.code] at hcode
  cases hresult : (env.check (colour && !i.noColour) i.request).result with
  | error f =>
    rw [hresult] at hcode
    exact absurd rfl hcode
  | ok s =>
    rcases findsNothing_or_checks hresult with ⟨found, hnothing⟩ | ⟨found, results, hchecks⟩
    · exact ⟨found, [], .inl hnothing⟩
    · exact ⟨found, results, .inr hchecks⟩

/-- A run that does not end with an error has found every given file and, below given directories,
others called like YAML files; it has handled every file it has found, and it has warned of every
given path that leads nowhere.  So a given file that cannot be handled makes an error of the run. -/
theorem handled_unless_error (env : Environment) (h : Invocation.ofArgs args = .ok i) :
    let ending := env.program colour elapsed args
    (ending.code ≠ 2 → ∃ found, env.discover i.request.paths = .ok found ∧
      let files := (env.filesFor i.request found.head?).files
      (∀ p ∈ i.request.paths, env.NamesFile p → p.normalize env.cwd ∈ files)
      ∧ (∀ file ∈ files, env.Handles file)
      ∧ ∀ p ∈ i.request.paths, ∀ e, env.node? true (p.normalize env.cwd) = .error e →
        i.logLevel.showsWarnings = true →
        ((env.log i).warningLine (env.walkWarning p e)).toList <:+: ending.stderr.toList)
    ∧ ∀ p ∈ i.request.paths, env.NamesFile p → ¬ env.Handles (p.normalize env.cwd) →
      ending.code = 2 := by
  intro ending
  have hgiven (found : List FoundConfig) : ∀ p ∈ i.request.paths, env.NamesFile p →
      p.normalize env.cwd ∈ (env.filesFor i.request found.head?).files :=
    fun p hp => mem_findFiles_of_namesFile hp
  have hhandled {found : List FoundConfig} {results : List FileResult} (hcode : ending.code ≠ 2)
      (hrun : env.FindsNothing i.request found ∨ env.Checks i.request found results) :
      ∀ file ∈ (env.filesFor i.request found.head?).files, env.Handles file := by
    intro file hfile
    rcases hrun with hnothing | hchecks
    · rw [hnothing.files] at hfile
      cases hfile
    · by_contra hlost
      exact hcode ((code_eq_two_iff_of_checks colour elapsed h hchecks).mpr ⟨file, hfile, hlost⟩)
  constructor
  · intro hcode
    obtain ⟨found, results, hrun⟩ := findsNothing_or_checks_of_code colour elapsed h hcode
    refine ⟨found, hrun.elim (·.discovered) (·.discovered), hgiven found, hhandled hcode hrun, ?_⟩
    intro p hp e he hshown
    exact infix_stderr_of_warning colour elapsed h hrun (walkWarning_mem_searchNotices hp he) hshown
  · intro p hp hfile hlost
    by_contra hcode
    obtain ⟨found, results, hrun⟩ := findsNothing_or_checks_of_code colour elapsed h hcode
    exact hlost (hhandled hcode hrun _ (hgiven found p hp hfile))

end Run

/-- A run that passes has handled the file that it was given, and it has warned of another one that
is not there. -/
theorem handled_unless_error_missing_file :
    let env := withFile "a.yaml" "---\nk: v\n"
    let ending := env.program false "1ms" ["check", "a.yaml", "b.yaml"]
    ending.code = 0 ∧ env.Handles ⟨"/a.yaml"⟩
      ∧ " WARN Failed to walk path: /b.yaml: No such file or directory (os error 2)".toList
        <:+: ending.stderr.toList := by
  intro env ending
  have hargs : Invocation.ofArgs ["check", "a.yaml", "b.yaml"]
      = .ok ⟨{ paths := [⟨"a.yaml"⟩, ⟨"b.yaml"⟩] }, none, false⟩ := rfl
  have hcode : ending.code = 0 := by decide +kernel
  obtain ⟨found, -, hgiven, hhandled, hwarned⟩ :=
    (handled_unless_error false "1ms" env hargs).1 (by rw [hcode]; decide)
  have hfile : env.NamesFile ⟨"a.yaml"⟩ := by decide +kernel
  have hmissing : (withFile "a.yaml" "---\nk: v\n").node? true (Path.normalize .root ⟨"b.yaml"⟩)
      = .error .notFound := by rfl
  have hline : (Log.mk .default false).warningLine (env.walkWarning ⟨"b.yaml"⟩ .notFound)
      = " WARN Failed to walk path: /b.yaml: No such file or directory (os error 2)" := by
    decide +kernel
  refine ⟨hcode, hhandled _ (hgiven ⟨"a.yaml"⟩ (List.mem_cons_self ..) hfile), ?_⟩
  rw [← hline]
  exact hwarned ⟨"b.yaml"⟩ (List.mem_cons_of_mem _ (List.mem_singleton_self _)) .notFound hmissing rfl

/-- A run over a path that leads nowhere passes. -/
theorem missing_path_passes :
    let env := withFile "a.yaml" "---\nk: v\n"
    Invocation.ofArgs ["check", "b.yaml"] = .ok ⟨{ paths := [⟨"b.yaml"⟩] }, none, false⟩
    ∧ env.node? true (Path.normalize env.cwd ⟨"b.yaml"⟩) = .error .notFound
    ∧ (env.program false "1ms" ["check", "b.yaml"]).code = 0 := by
  refine ⟨rfl, ?_, ?_⟩
  · rfl
  · decide +kernel

end Environment

end DocMark
