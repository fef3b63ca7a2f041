import DocMark.Proofs.ReportDocument

/-!
# Which failures are reported

What went wrong with a file reaches whoever started the run in one of two ways.  People read it on
the channel beside the results, under statistics as well as under a report; programs find it in the
document.  Annotations have no place for it: they are made of the diagnostics alone, and nothing
else is written that a failure has a part in.

Main statement: `Environment.failures_reported`.
-/

namespace DocMark

/-! ### Texts of failures -/

namespace Failure

/-- The whole chain ends with the cause. -/
theorem cause_suffix_text (f : Failure) : f.cause.text.toList <:+ f.text.toList := by
  unfold text chain
  induction f.attempts with
  | nil => simp
  | cons attempt attempts ih =>
    rw [List.cons_append, String.intercalate_cons_of_ne_nil (by simp), String.toList_append]
    exact ih.trans (List.suffix_append ..)

theorem cause_suffix_brief (f : Failure) : f.cause.text.toList <:+ f.brief.toList := by
  obtain ⟨attempts, cause⟩ := f
  cases cause with
  | unparsable e => exact List.suffix_refl _
  | other text => exact cause_suffix_text ⟨attempts, .other text⟩

end Failure

/-- A result that is an error is a failure under the name of its file. -/
theorem mem_failures_ofResults {results : List FileResult} {r : FileResult} {e : CheckError}
    (hr : r ∈ results) (he : r.outcome = .error e) :
    (r.file, e.failure) ∈ (Report.ofResults results).failures := by
  refine List.mem_filterMap.mpr ⟨r, hr, ?_⟩
  rw [FileResult.failure?, he]

/-- The text says of every file that could not be checked what went wrong in the end. -/
def SaysWhy (text : String) (results : List FileResult) : Prop :=
  ∀ r ∈ results, ∀ e, r.outcome = .error e → e.failure.cause.text.toList <:+: text.toList

/-- The text is an object with an entry for every file that could not be checked, which says what
went wrong in the end.  A reader of 64 bits gets the object back. -/
def ListsWhy (text : String) (results : List FileResult) : Prop :=
  ∃ ds errors, let document := Json.object [("diagnostics", .array ds), ("errors", .array errors)]
    Json.Document document text.toList
    ∧ ((∀ r ∈ results, ∀ d ∈ r.diagnostics, d.problem.IsNear) →
        Json.parse text.toList = some document)
    ∧ ∀ r ∈ results, ∀ e, r.outcome = .error e →
        ∃ error, .object [("file", .string r.file.text), ("error", .string error)] ∈ errors
          ∧ e.failure.cause.text.toList <:+: error.toList

namespace Run

/-- Statistics and reports for people have a line on every failure, which ends with its cause. -/
theorem errorLine_mem_present (fs : FileSystem) (colour : Bool) {q : Request}
    (elsewhere? : Option Path) {r : Report} {file : Path} {f : Failure}
    (hpeople : q.statistics = true ∨ q.format.isStructured = false)
    (hf : (file, f) ∈ r.failures) :
    ∃ text, Report.errorLine colour text ∈ (present fs colour q elsewhere? r).notices
      ∧ f.cause.text.toList <:+ text.toList := by
  have hbrief : Report.errorLine colour f.brief ∈ r.failureNotices colour :=
    List.mem_map.mpr ⟨_, hf, rfl⟩
  unfold present
  cases hstatistics : q.statistics with
  | true => exact ⟨f.text, List.mem_map.mpr ⟨_, hf, rfl⟩, f.cause_suffix_text⟩
  | false =>
    refine ⟨f.brief, ?_, f.cause_suffix_brief⟩
    have hformat := hpeople.resolve_left (by simp [hstatistics])
    simp only [Bool.false_eq_true, if_false, Output.notices_append, List.mem_append]
    cases hq : q.format with
    | full => exact .inl (List.mem_append_left _ (List.mem_append_left _ hbrief))
    | concise => exact .inl hbrief
    | github => rw [hq] at hformat; cases hformat
    | json => rw [hq] at hformat; cases hformat

end Run

namespace Environment

variable {env : Environment} {args : List String} {i : Invocation} {found : List FoundConfig}
  {results : List FileResult} (colour : Bool) (elapsed : String)

theorem saysWhy_stderr (h : Invocation.ofArgs args = .ok i)
    (hchecks : env.Checks i.request found results)
    (hpeople : i.request.statistics = true ∨ i.request.format.isStructured = false) :
    SaysWhy (env.program colour elapsed args).stderr results := by
  intro r hr e he
  obtain ⟨text, hline, hcause⟩ :=
    Run.errorLine_mem_present env.toFileSystem (colour && !i.noColour)
      (Run.configElsewhere? env.cwd found.head?) hpeople (mem_failures_ofResults hr he)
  rw [stderr_of_checks colour elapsed h hchecks]
  -- The line is no warning, so the level of the log does not keep it back.
  have hwritten := infix_textOfLines (List.mem_filterMap.mpr
    ⟨_, List.mem_append_right (env.searchNotices i.request found) hline,
      show Notice.line? (env.log i) _ = some _ from rfl⟩)
  refine List.IsInfix.trans ?_ hwritten
  rw [String.toList_append]
  exact (hcause.trans (List.suffix_append ..)).isInfix

theorem listsWhy_stdout (h : Invocation.ofArgs args = .ok i)
    (hchecks : env.Checks i.request found results) (hjson : i.request.format = .json)
    (hplain : i.request.statistics = false) :
    ListsWhy (env.program colour elapsed args).stdout results := by
  have hlisted := Report.listedIn_pretty results
  rw [← toList_stdout_of_checks_json colour elapsed h hjson hplain hchecks] at hlisted
  refine ⟨_, _, hlisted.document_text, ?_, ?_⟩
  · intro hnear
    apply hlisted.readable
    intro d hd
    obtain ⟨r, hr, hdr⟩ := List.mem_flatMap.mp (hlisted.perm.mem_iff.mp hd)
    exact hnear r hr d hdr
  · intro r hr e he
    exact ⟨e.failure.text, List.mem_map.mpr ⟨_, mem_failures_ofResults hr he, rfl⟩,
      e.failure.cause_suffix_text.isInfix⟩

/-! ### Annotations -/

theorem stdout_of_checks_github (h : Invocation.ofArgs args = .ok i)
    (hgithub : i.request.format = .github) (hplain : i.request.statistics = false)
    (hchecks : env.Checks i.request found results) :
    (env.program colour elapsed args).stdout =
      textOfLines ((Report.ofResults results).diagnostics.map Report.annotation) := by
  rw [stdout_of_checks colour elapsed h hchecks]
  simp [outputFor, Run.present, Request.isAnnotated, Report.write, Report.github, hgithub, hplain,
    Format.isStructured, Output.ofResults]

theorem stderr_of_checks_github (h : Invocation.ofArgs args = .ok i)
    (hgithub : i.request.format = .github) (hplain : i.request.statistics = false)
    (hchecks : env.Checks i.request found results) :
    (env.program colour elapsed args).stderr =
      textOfLines ((env.searchNotices i.request found).filterMap (·.line? (env.log i))) := by
  rw [stderr_of_checks colour elapsed h hchecks]
  simp [outputFor, Run.present, Request.isAnnotated, Report.write, Report.github, hgithub, hplain,
    Format.isStructured, Output.ofResults]

/-! ### All runs -/

/-- A run that comes to a status has found no file, or it has checked what it found.  Then
statistics and reports for people say on the other channel why a file could not be checked, and the
document has an entry that says so.  Annotations do not: what is written then is made of the
diagnostics and of what the search had to warn of.  Only where a run says step by step what it does
other lines may be written there; these are not among those that are kept (`Notice`). -/
theorem failures_reported (env : Environment) {s : ExitStatus}
    (h : Invocation.ofArgs args = .ok i)
    (hresult : (env.check (colour && !i.noColour) i.request).result = .ok s) :
    let ending := env.program colour elapsed args
    (∃ found, env.FindsNothing i.request found)
    ∨ ∃ found results, env.Checks i.request found results
      ∧ (i.request.statistics = true ∨ i.request.format.isStructured = false →
          SaysWhy ending.stderr results)
      ∧ (i.request.statistics = false → i.request.format = .json →
          ListsWhy ending.stdout results)
      ∧ (i.request.statistics = false → i.request.format = .github →
          ending.stdout =
              textOfLines ((Report.ofResults results).diagnostics.map Report.annotation)
            ∧ (i.logLevel.showsSteps = false → ending.stderr = textOfLines
                ((env.searchNotices i.request found).filterMap (·.line? (env.log i))))) := by
  intro ending
  refine (findsNothing_or_checks hresult).imp_right fun ⟨found, results, hchecks⟩ => ?_
  refine ⟨found, results, hchecks, ?_, ?_, ?_⟩
  · intro hpeople
    exact saysWhy_stderr colour elapsed h hchecks hpeople
  · intro hplain hjson
    exact listsWhy_stdout colour elapsed h hchecks hjson hplain
  · intro hplain hgithub
    exact ⟨stdout_of_checks_github colour elapsed h hgithub hplain hchecks,
      fun _ => stderr_of_checks_github colour elapsed h hgithub hplain hchecks⟩

/-- A file that is not YAML is named for people, though only its rules were to be counted, and in a
document. -/
theorem failures_reported_one_file :
    let env := withFile "b.yaml" "a: \"b\n"
    let q : Request := { paths := [⟨"b.yaml"⟩] }
    (∃ found results, env.Checks { q with format := .github, statistics := true } found results
      ∧ SaysWhy (env.program true "1ms"
          ["check", "--statistics", "--output-format=github", "b.yaml"]).stderr results)
    ∧ ∃ found results, env.Checks { q with format := .json } found results
      ∧ ListsWhy (env.program true "1ms" ["check", "--output-format=json", "b.yaml"]).stdout
          results := by
  intro env q
  -- Neither the format nor statistics have a part in which files there are.
  have hfiles :
      ((withFile "b.yaml" "a: \"b\n").filesFor { paths := [⟨"b.yaml"⟩] } none).files ≠ [] :=
    List.isEmpty_eq_false_iff.mp (by decide +kernel)
  have hchecks (format : Format) (statistics : Bool) : (withFile "b.yaml" "a: \"b\n").Checks
      { q with format := format, statistics := statistics } [] _ :=
    ⟨by rfl, hfiles, ⟨.defaults, {}⟩, rfl, rfl⟩
  have hcounted : Invocation.ofArgs ["check", "--statistics", "--output-format=github", "b.yaml"]
      = .ok ⟨{ q with format := .github, statistics := true }, none, false⟩ := rfl
  have hlisted : Invocation.ofArgs ["check", "--output-format=json", "b.yaml"]
      = .ok ⟨{ q with format := .json }, none, false⟩ := rfl
  have hcountedResult := congrArg Run.result (check_of_checks (hchecks .github true) true)
  have hlistedResult := congrArg Run.result (check_of_checks (hchecks .json false) true)
  constructor
  · obtain ⟨found, hnothing⟩ | ⟨found, results, hfound, hsays, -⟩ :=
      failures_reported true "1ms" env hcounted hcountedResult
    · exact absurd (hchecks .github true) hnothing.not_checks
    · exact ⟨found, results, hfound, hsays (.inl rfl)⟩
  · obtain ⟨found, hnothing⟩ | ⟨found, results, hfound, -, hlists, -⟩ :=
      failures_reported true "1ms" env hlisted hlistedResult
    · exact absurd (hchecks .json false) hnothing.not_checks
    · exact ⟨found, results, hfound, hlists rfl rfl⟩

/-- Annotations say nothing of a file that could not be checked, and nor does anything else: the run
ends with an error and writes nothing at all. -/
theorem failure_without_a_word :
    let env := withFile "b.yaml" "a: \"b\n"
    let broken := env.checkFile ⟨.defaults, {}⟩ ⟨"b.yaml"⟩
    broken.failure?.map (·.2.cause.text) = some ("Failed to parse b.yaml at line 1 column 4: "
      ++ "while scanning a quoted scalar, found unexpected end of stream")
    ∧ env.program false "1ms" ["check", "--output-format", "github", "b.yaml"]
      = ⟨ExitStatus.error.code, "", ""⟩ := by
  decide +kernel

end Environment

end DocMark
