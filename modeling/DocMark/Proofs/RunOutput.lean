import DocMark.Proofs.RunStatus

/-!
# What a run writes

A run that comes to a status has done one of two things: its search came to no file at all
(`FindsNothing`), or it has checked what it found (`Checks`).  Both say what the output is made of,
and what a run writes follows from them alone, down to the two texts of the program.

Main statements:

* `check_of_findsNothing`, `check_of_checks` — the whole run;
* `check_cases` — a run that is neither could not be carried out;
* `stdout_of_checks`, `stderr_of_checks` — the two texts.
-/

namespace DocMark

/-- A line that was written stands in the text. -/
theorem infix_textOfLines {line : String} {lines : List String} (h : line ∈ lines) :
    line.toList <:+: (textOfLines lines).toList := by
  obtain ⟨before, after, rfl⟩ := List.append_of_mem h
  refine ⟨(textOfLines before).toList, '\n' :: (textOfLines after).toList, ?_⟩
  simp [textOfLines]

namespace Environment

/-- What a run says about its search. -/
def searchNotices (env : Environment) (q : Request) (found : List FoundConfig) : List Notice :=
  Run.unusedWarnings found ++ Run.searchWarnings (env.filesFor q found.head?)

/-- The search comes to no file, with these configurations. -/
structure FindsNothing (env : Environment) (q : Request) (found : List FoundConfig) : Prop where
  discovered : env.discover q.paths = .ok found
  files : (env.filesFor q found.head?).files = []

/-- The search comes to files, with these configurations, and these are their results. -/
structure Checks (env : Environment) (q : Request) (found : List FoundConfig)
    (results : List FileResult) : Prop where
  discovered : env.discover q.paths = .ok found
  files : (env.filesFor q found.head?).files ≠ []
  checked : ∃ config,
    Config.ofSelections q.select q.ignore (found.head?.map (·.settings)) = .ok config ∧
      results = env.checkFiles config (env.filesFor q found.head?).files

/-- What is written about these results. -/
def outputFor (env : Environment) (colour : Bool) (q : Request) (found : List FoundConfig)
    (results : List FileResult) : Output :=
  Run.present env.toFileSystem colour q (Run.configElsewhere? env.cwd found.head?)
    (Report.ofResults results)

/-! ### The run -/

section Run

variable {env : Environment} {q : Request} {found : List FoundConfig} {results : List FileResult}

theorem check_of_findsNothing (h : env.FindsNothing q found) (colour : Bool) :
    env.check colour q =
      ⟨⟨[Run.nothingLine colour], env.searchNotices q found⟩, false, .ok .success⟩ := by
  rw [check, h.discovered]
  show env.checkWith colour q found = _
  rw [checkWith]
  simp only [h.files, List.isEmpty_nil, if_true]
  rfl

theorem check_of_checks (h : env.Checks q found results) (colour : Bool) :
    env.check colour q =
      { output := .ofNotices (env.searchNotices q found) ++ env.outputFor colour q found results
        timed := q.timed && q.isAnnotated
        result := .ok (Run.statusFor q results) } := by
  obtain ⟨config, hconfig, rfl⟩ := h.checked
  have hfiles := List.isEmpty_eq_false_iff.mpr h.files
  rw [check, h.discovered]
  show env.checkWith colour q found = _
  rw [checkWith]
  simp only [hfiles, hconfig]
  rfl

/-- There are no other runs than these and those that could not be carried out. -/
theorem check_cases (env : Environment) (colour : Bool) (q : Request) :
    (∃ notices f, env.check colour q = Run.failed notices f)
      ∨ (∃ found, env.FindsNothing q found) ∨ ∃ found results, env.Checks q found results := by
  cases hfound : env.discover q.paths with
  | error e =>
    left
    rw [check, hfound]
    exact ⟨_, _, rfl⟩
  | ok found =>
    by_cases hfiles : (env.filesFor q found.head?).files = []
    · exact .inr (.inl ⟨found, hfound, hfiles⟩)
    · cases hconfig : Config.ofSelections q.select q.ignore (found.head?.map (·.settings)) with
      | ok config => exact .inr (.inr ⟨found, _, hfound, hfiles, config, hconfig, rfl⟩)
      | error e =>
        left
        rw [check, hfound]
        show ∃ notices f, env.checkWith colour q found = _
        rw [checkWith]
        simp only [List.isEmpty_eq_false_iff.mpr hfiles, hconfig]
        exact ⟨_, _, rfl⟩

/-- A run that comes to a status is one of the two. -/
theorem findsNothing_or_checks {colour : Bool} {s : ExitStatus}
    (h : (env.check colour q).result = .ok s) :
    (∃ found, env.FindsNothing q found) ∨ ∃ found results, env.Checks q found results := by
  rcases check_cases env colour q with ⟨notices, f, hfailed⟩ | hfinished
  · rw [hfailed] at h
    cases h
  · exact hfinished

/-- A run never is both. -/
theorem FindsNothing.not_checks {found' : List FoundConfig} (h : env.FindsNothing q found) :
    ¬ env.Checks q found' results := by
  intro hchecks
  cases h.discovered.symm.trans hchecks.discovered
  exact hchecks.files h.files

end Run

/-! ### The two texts -/

section Texts

variable {env : Environment} {args : List String} {i : Invocation} {found : List FoundConfig}
  {results : List FileResult} (colour : Bool) (elapsed : String)

theorem stdout_program (h : Invocation.ofArgs args = .ok i) :
    (env.program colour elapsed args).stdout =
      textOfLines ((env.check (colour && !i.noColour) i.request).outputAfter elapsed).results := by
  rw [program, h]
  simp [Run.ending, Output.stdout, Output.ofNotices]

theorem stdout_of_findsNothing (h : Invocation.ofArgs args = .ok i)
    (hnothing : env.FindsNothing i.request found) :
    (env.program colour elapsed args).stdout =
      Run.nothingLine (colour && !i.noColour) ++ "\n" := by
  rw [stdout_program colour elapsed h, check_of_findsNothing hnothing]
  simp [Run.outputAfter, Output.ofResults, textOfLines]

theorem stderr_of_findsNothing (h : Invocation.ofArgs args = .ok i)
    (hnothing : env.FindsNothing i.request found) :
    (env.program colour elapsed args).stderr =
      textOfLines ((env.searchNotices i.request found).filterMap (·.line? (env.log i))) := by
  rw [program, h]
  show (Run.ending _ _ _).stderr = _
  rw [check_of_findsNothing hnothing]
  simp [Run.ending, Run.outputAfter, Run.failureNotices, Output.stderr, Output.ofNotices,
    Output.ofResults]

theorem stdout_of_checks (h : Invocation.ofArgs args = .ok i)
    (hchecks : env.Checks i.request found results) :
    (env.program colour elapsed args).stdout =
      textOfLines ((env.outputFor (colour && !i.noColour) i.request found results).results
        ++ if i.request.timed && i.request.isAnnotated then Run.timeLines elapsed else []) := by
  rw [stdout_program colour elapsed h, check_of_checks hchecks]
  simp [Run.outputAfter, Output.ofNotices, Output.ofResults]

theorem code_of_checks (h : Invocation.ofArgs args = .ok i)
    (hchecks : env.Checks i.request found results) :
    (env.program colour elapsed args).code = (Run.statusFor i.request results).code := by
  have hresult := congrArg Run.result (check_of_checks hchecks (colour && !i.noColour))
  rw [code_program env colour elapsed h, code_check_of_ok hresult]

theorem stderr_of_checks (h : Invocation.ofArgs args = .ok i)
    (hchecks : env.Checks i.request found results) :
    (env.program colour elapsed args).stderr =
      textOfLines ((env.searchNotices i.request found
        ++ (env.outputFor (colour && !i.noColour) i.request found results).notices).filterMap
          (·.line? (env.log i))) := by
  rw [program, h]
  show (Run.ending _ _ _).stderr = _
  rw [check_of_checks hchecks]
  simp [Run.ending, Run.outputAfter, Run.failureNotices, Output.stderr, Output.ofNotices,
    Output.ofResults]

/-- Whether a run finds files or not, it writes the warnings of its search. -/
theorem infix_stderr_of_warning {text : String} (h : Invocation.ofArgs args = .ok i)
    (hrun : env.FindsNothing i.request found ∨ env.Checks i.request found results)
    (htext : Notice.warning text ∈ env.searchNotices i.request found)
    (hshown : i.logLevel.showsWarnings = true) :
    ((env.log i).warningLine text).toList <:+: (env.program colour elapsed args).stderr.toList := by
  have hline : (Notice.warning text).line? (env.log i) = some ((env.log i).warningLine text) :=
    if_pos hshown
  rcases hrun with hnothing | hchecks
  · rw [stderr_of_findsNothing colour elapsed h hnothing]
    exact infix_textOfLines (List.mem_filterMap.mpr ⟨_, htext, hline⟩)
  · rw [stderr_of_checks colour elapsed h hchecks]
    exact infix_textOfLines
      (List.mem_filterMap.mpr ⟨_, List.mem_append_left _ htext, hline⟩)

end Texts

end Environment

end DocMark
