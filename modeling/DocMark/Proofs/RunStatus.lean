import DocMark.Program

/-!
# How a run ends

A run comes to its status in one of two ways.  If it shows statistics, it looks at the diagnostics
of all files in one list; if it shows the diagnostics themselves, it looks at the files that have
any.  Both ways agree, and both say what the outcomes of the files call for: an error if some file
could not be checked, else a failure if some file has a diagnostic, else success.  Nothing else that
a request says about the report has a part in it.

Main statements:

* `statusFor_eq_error_iff`, `statusFor_eq_failure_iff`, `statusFor_eq_success_iff` — what the status
  says about the files;
* `result_check_congr` — requests that differ only in the report end alike;
* `program_code_law` — both, for the whole program.
-/

namespace DocMark

namespace FileResult

/-- The file could not be checked. -/
def Failed (r : FileResult) : Prop := ∃ e, r.outcome = .error e

/-- The file was checked, and something is wrong with it. -/
def Flagged (r : FileResult) : Prop := ∃ ds, r.outcome = .ok ds ∧ ds ≠ []

theorem failure?_eq_none_iff (r : FileResult) : r.failure? = none ↔ ¬ r.Failed := by
  unfold failure? Failed
  cases h : r.outcome with
  | ok ds => simp
  | error e => simp

theorem diagnostics_eq_nil_iff (r : FileResult) : r.diagnostics = [] ↔ ¬ r.Flagged := by
  unfold diagnostics Flagged
  cases h : r.outcome with
  | ok ds => simp
  | error e => simp

theorem findings?_eq_none_iff (r : FileResult) : r.findings? = none ↔ ¬ r.Flagged := by
  rw [← diagnostics_eq_nil_iff, findings?]
  cases r.diagnostics with
  | nil => simp
  | cons d ds => simp

end FileResult

namespace Diagnostic

theorem sort_eq_nil_iff (ds : List Diagnostic) : sort ds = [] ↔ ds = [] := by
  rw [← List.length_eq_zero_iff, sort, List.length_mergeSort, List.length_eq_zero_iff]

end Diagnostic

/-! ### The two ways to the status -/

section Status

variable (q : Request) (results : List FileResult)

theorem filterMap_failure?_eq_nil_iff :
    results.filterMap (·.failure?) = [] ↔ ¬ ∃ r ∈ results, r.Failed := by
  simp only [List.filterMap_eq_nil_iff, FileResult.failure?_eq_none_iff, not_exists, not_and]

theorem filterMap_findings?_eq_nil_iff :
    results.filterMap (·.findings?) = [] ↔ ¬ ∃ r ∈ results, r.Flagged := by
  simp only [List.filterMap_eq_nil_iff, FileResult.findings?_eq_none_iff, not_exists, not_and]

theorem diagnostics_ofResults_eq_nil_iff :
    (Report.ofResults results).diagnostics = [] ↔ ¬ ∃ r ∈ results, r.Flagged := by
  show Diagnostic.sort (results.flatMap (·.diagnostics)) = [] ↔ _
  simp only [Diagnostic.sort_eq_nil_iff, List.flatMap_eq_nil_iff,
    FileResult.diagnostics_eq_nil_iff, not_exists, not_and]

/-- The list of all diagnostics is empty exactly when no file has any. -/
theorem status_ofResults : (Report.ofResults results).status = Run.statusOfFiles results := by
  have hfailures : (Report.ofResults results).failures = results.filterMap (·.failure?) := rfl
  have hempty :
      (Report.ofResults results).diagnostics = [] ↔ results.filterMap (·.findings?) = [] :=
    (diagnostics_ofResults_eq_nil_iff results).trans (filterMap_findings?_eq_nil_iff results).symm
  unfold Report.status Run.statusOfFiles statusOf
  rw [hfailures]
  cases results.filterMap (·.failure?) with
  | cons f fs => rfl
  | nil =>
    simp only [List.isEmpty_iff, hempty]
    rfl

theorem statusFor_eq_statusOfFiles : Run.statusFor q results = Run.statusOfFiles results := by
  unfold Run.statusFor
  split
  · exact status_ofResults results
  · rfl

theorem statusFor_eq_error_iff :
    Run.statusFor q results = .error ↔ ∃ r ∈ results, r.Failed := by
  rw [statusFor_eq_statusOfFiles, Run.statusOfFiles,
    ← Classical.not_not (a := ∃ r ∈ results, r.Failed), ← filterMap_failure?_eq_nil_iff results]
  cases results.filterMap (·.failure?) with
  | nil => cases results.filterMap (·.findings?) <;> simp
  | cons f fs => simp

theorem statusFor_eq_failure_iff :
    Run.statusFor q results = .failure
      ↔ (¬ ∃ r ∈ results, r.Failed) ∧ ∃ r ∈ results, r.Flagged := by
  rw [statusFor_eq_statusOfFiles, Run.statusOfFiles, ← filterMap_failure?_eq_nil_iff results,
    ← Classical.not_not (a := ∃ r ∈ results, r.Flagged),
    ← filterMap_findings?_eq_nil_iff results]
  cases results.filterMap (·.failure?) with
  | nil => cases results.filterMap (·.findings?) <;> simp
  | cons f fs => simp

theorem statusFor_eq_success_iff :
    Run.statusFor q results = .success
      ↔ (¬ ∃ r ∈ results, r.Failed) ∧ ¬ ∃ r ∈ results, r.Flagged := by
  rw [statusFor_eq_statusOfFiles, Run.statusOfFiles, ← filterMap_failure?_eq_nil_iff results,
    ← filterMap_findings?_eq_nil_iff results]
  cases results.filterMap (·.failure?) with
  | nil => cases results.filterMap (·.findings?) <;> simp
  | cons f fs => simp

end Status

/-! ### The whole run -/

namespace Request

/-- The same files are asked for, and the same rules; how to report on them is left open. -/
structure SameChecks (q q' : Request) : Prop where
  paths : q'.paths = q.paths
  select : q'.select = q.select
  ignore : q'.ignore = q.ignore
  noDefaultExclude : q'.noDefaultExclude = q.noDefaultExclude

end Request

namespace Environment

/-- A run that has its files and its rules ends with the status of the files. -/
theorem result_checkWith (env : Environment) (colour : Bool) (q : Request)
    (found : List FoundConfig) :
    (env.checkWith colour q found).result =
      if (env.filesFor q found.head?).files.isEmpty then .ok .success
      else
        match Config.ofSelections q.select q.ignore (found.head?.map (·.settings)) with
        | .error e => .error ⟨[], .other e.message⟩
        | .ok config =>
          .ok (Run.statusOfFiles (env.checkFiles config (env.filesFor q found.head?).files)) := by
  unfold checkWith
  dsimp only
  split
  · rfl
  · cases Config.ofSelections q.select q.ignore (found.head?.map (·.settings)) with
    | error e => rfl
    | ok config => exact congrArg Except.ok (statusFor_eq_statusOfFiles q _)

theorem result_check_congr (env : Environment) (colour colour' : Bool) {q q' : Request}
    (h : q.SameChecks q') : (env.check colour' q').result = (env.check colour q).result := by
  have hfiles (config? : Option FoundConfig) :
      env.filesFor q' config? = env.filesFor q config? := by
    rw [filesFor, filesFor, h.paths, h.noDefaultExclude]
  unfold check
  rw [h.paths]
  cases env.discover q.paths with
  | error e => rfl
  | ok found => simp only [result_checkWith, hfiles, h.select, h.ignore]

/-- The code of the program is that of its run. -/
theorem code_program (env : Environment) (colour : Bool) (elapsed : String) {args : List String}
    {i : Invocation} (h : Invocation.ofArgs args = .ok i) :
    (env.program colour elapsed args).code =
      (env.check (colour && !i.noColour) i.request).code := by
  rw [program, h]
  rfl

theorem code_check_of_ok {env : Environment} {colour : Bool} {q : Request} {s : ExitStatus}
    (h : (env.check colour q).result = .ok s) : (env.check colour q).code = s.code := by
  rw [Run.code, h]

/-- What a request says about the report has no part in how the run ends: neither the format nor
statistics nor the time.  A run that has found files and knows its rules ends with two if some file
could not be checked, else with one if something is wrong with some file, else with zero. -/
theorem program_code_law (env : Environment) (colour : Bool) (elapsed : String)
    {args : List String} {i : Invocation} (h : Invocation.ofArgs args = .ok i) :
    (∀ colour' elapsed' args' i', Invocation.ofArgs args' = .ok i' →
      i.request.SameChecks i'.request →
      (env.program colour' elapsed' args').code = (env.program colour elapsed args).code)
    ∧ ∀ found config, env.discover i.request.paths = .ok found →
      (env.filesFor i.request found.head?).files ≠ [] →
      Config.ofSelections i.request.select i.request.ignore (found.head?.map (·.settings))
        = .ok config →
      let results := env.checkFiles config (env.filesFor i.request found.head?).files
      let code := (env.program colour elapsed args).code
      (code = 2 ↔ ∃ r ∈ results, r.Failed)
      ∧ (code = 1 ↔ (¬ ∃ r ∈ results, r.Failed) ∧ ∃ r ∈ results, r.Flagged)
      ∧ (code = 0 ↔ (¬ ∃ r ∈ results, r.Failed) ∧ ¬ ∃ r ∈ results, r.Flagged) := by
  constructor
  · intro colour' elapsed' args' i' h' hsame
    rw [code_program env colour' elapsed' h', code_program env colour elapsed h, Run.code, Run.code,
      result_check_congr env _ _ hsame]
  · intro found config hfound hfiles hconfig results code
    have hempty : (env.filesFor i.request found.head?).files.isEmpty = false :=
      List.isEmpty_eq_false_iff.mpr hfiles
    have hresult : (env.check (colour && !i.noColour) i.request).result
        = .ok (Run.statusFor i.request results) := by
      rw [check, hfound]
      show (env.checkWith _ _ found).result = _
      rw [result_checkWith, hempty, hconfig, statusFor_eq_statusOfFiles]
      rfl
    have hcode : code = (Run.statusFor i.request results).code := by
      show (env.program colour elapsed args).code = _
      rw [code_program env colour elapsed h, code_check_of_ok hresult]
    rw [hcode, ← statusFor_eq_failure_iff i.request, ← statusFor_eq_success_iff i.request,
      ← statusFor_eq_error_iff i.request]
    cases Run.statusFor i.request results <;> decide

/-- Nothing but one file, in the current directory. -/
def withFile (name text : String) : Environment where
  tree := .directory [(name, .file text.toUTF8)]
  cwd := .root
  userConfig := ⟨["user"]⟩
  userIgnore := ⟨["ignore"]⟩

/-- A file without a marker fails the run, and it does so too when only its rules are counted, for a
program to read, with the time taken. -/
theorem program_code_law_one_file :
    ((withFile "a.yaml" "a: 1\n").program false "1ms" ["check", "a.yaml"]).code = 1
    ∧ ((withFile "a.yaml" "a: 1\n").program true "2s"
        ["check", "--statistics", "--output-format=json", "-w", "a.yaml"]).code = 1 := by
  have hplain : Invocation.ofArgs ["check", "a.yaml"]
      = .ok ⟨{ paths := [⟨"a.yaml"⟩] }, none, false⟩ := rfl
  have hcounted :
      Invocation.ofArgs ["check", "--statistics", "--output-format=json", "-w", "a.yaml"]
        = .ok ⟨{ paths := [⟨"a.yaml"⟩], timed := true, format := .json, statistics := true },
            none, false⟩ := rfl
  have hfound : (withFile "a.yaml" "a: 1\n").discover [⟨"a.yaml"⟩] = .ok [] := by rfl
  have hfiles : ((withFile "a.yaml" "a: 1\n").filesFor { paths := [⟨"a.yaml"⟩] } none).files ≠ [] :=
    List.isEmpty_eq_false_iff.mp (by decide +kernel)
  have hlaw := program_code_law (withFile "a.yaml" "a: 1\n") false "1ms" hplain
  have hone := (hlaw.2 [] ⟨.defaults, {}⟩ hfound hfiles rfl).2.1.mpr
    ⟨(filterMap_failure?_eq_nil_iff _).mp (List.isEmpty_iff.mp (by decide +kernel)),
      Classical.not_not.mp fun hclean =>
        List.isEmpty_eq_false_iff.mp (by decide +kernel)
          ((filterMap_findings?_eq_nil_iff _).mpr hclean)⟩
  exact ⟨hone, (hlaw.1 true "2s" _ _ hcounted ⟨rfl, rfl, rfl, rfl⟩).trans hone⟩

end Environment

end DocMark
