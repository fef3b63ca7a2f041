import Mathlib.Data.List.SplitBy
import DocMark.Proofs.JsonScalars
import DocMark.Proofs.RunOutput

/-!
# The line that says that all is well

A report for people ends in a summary, and so do statistics.  When there is nothing to count, the
summary says that all checks have passed.  Every other line of a report has some character that
this one does not have, so it is written where it is meant, and nowhere else.

A report keeps silent when there are failures and nothing but failures; statistics do not.

Main statements:

* `Report.passedLine_mem_write_iff`, `passedLine_mem_statisticsLines_iff` — when a report and
  statistics have the line;
* `Environment.passedLine_written` — when a run has it, and how the run ends then.
-/

namespace DocMark

/-! ### Characters of other lines -/

theorem Json.mem_laidOut (opening closing : Char) (level : Nat) (parts : List (List Char)) :
    opening ∈ laidOut opening closing level parts := by
  unfold laidOut
  split
  · exact List.mem_cons_self ..
  · exact List.mem_cons_self ..

/-- Every character of a row is written. -/
theorem Row.mem_line {colour : Bool} {r : Row} {c : Char} (h : c ∈ r.cells.map (·.char)) :
    c ∈ (r.line colour).toList := by
  rw [← List.flatten_splitBy (fun a b : Cell => a.role? = b.role?) r.cells, List.map_flatten,
    List.mem_flatten] at h
  obtain ⟨chars, hchars, hc⟩ := h
  obtain ⟨cells, hcells, rfl⟩ := List.mem_map.mp hchars
  rw [line, String.toList_join]
  exact List.mem_flatMap.mpr ⟨_, List.mem_map_of_mem hcells, mem_paintCells hc⟩

namespace Report

/-- A line with a character that the summary does not have is another line. -/
theorem ne_passedLine {line : String} (c : Char) (hc : c ∈ line.toList)
    (hno : c ∉ passedLine.toList) : line ≠ passedLine := by
  rintro rfl
  exact hno hc

theorem conciseLine_ne_passedLine (colour : Bool) (cwd : Location) (d : Diagnostic) :
    conciseLine colour cwd d ≠ passedLine :=
  ne_passedLine '[' (by simp [conciseLine, bracketed]) (by decide)

theorem annotation_ne_passedLine (d : Diagnostic) : annotation d ≠ passedLine := by
  refine ne_passedLine ']' ?_ (by decide)
  unfold annotation
  rw [String.toList_append, String.toList_append, List.mem_append, List.mem_append]
  exact .inl (.inr (by decide))

theorem countLine_ne_passedLine {n : Nat} (h : n ≠ 0) : countLine n ≠ passedLine := by
  unfold countLine
  rw [if_neg h]
  split
  · decide
  · exact ne_passedLine 'F' (by simp) (by decide)

theorem bareLine_ne_passedLine (path : Path) (p : Problem) : bareLine path p ≠ passedLine :=
  ne_passedLine '[' (by simp [bareLine, bracketed]) (by decide)

theorem pretty_toJson_ne_passedLine (r : Report) : String.ofList r.toJson.pretty ≠ passedLine := by
  refine ne_passedLine '\x7b' ?_ (by decide)
  rw [String.toList_ofList, Json.pretty, toJson, Json.prettyAt]
  exact Json.mem_laidOut ..

end Report

namespace Excerpt

open Report

theorem heading_ne_passedLine (colour : Bool) (p : Problem) : heading colour p ≠ passedLine := by
  refine ne_passedLine 'w' ?_ (by decide)
  rw [heading, String.toList_append, List.mem_append]
  exact .inl (mem_paint (by decide))

theorem place_ne_passedLine (colour : Bool) (margin : Nat) (path : Path) (line column : Nat) :
    place colour margin path line column ≠ passedLine :=
  ne_passedLine '>' (by simp [place, mem_paint]) (by decide)

theorem side_ne_passedLine (colour : Bool) (margin : Nat) : side colour margin ≠ passedLine :=
  ne_passedLine '|' (by simp [side, mem_paint]) (by decide)

/-- The row has dots where something is cut off.  If nothing is, it has at least the frame behind the
number of its line. -/
theorem sourceRow_ne_passedLine (colour : Bool) (m : MarkedLine) (message : String) :
    (m.sourceRow message).line colour ≠ passedLine := by
  have hdots (row : Row) (column : Nat) :
      (row.put column (some .frame) "...").line colour ≠ passedLine :=
    ne_passedLine '.' (Row.mem_line (Row.mem_put (by decide))) (by decide)
  unfold MarkedLine.sourceRow
  dsimp only
  split
  · exact hdots _ _
  · split
    · exact hdots _ _
    · refine ne_passedLine '|' (Row.mem_line (Row.mem_put_of_length_le ?_ ?_)) (by decide)
      · simp [MarkedLine.offset, String.length_toList]
      · simp

/-- The mark is put on its row last. -/
theorem markRow_ne_passedLine (colour : Bool) (m : MarkedLine) (message : String) :
    (m.markRow message).line colour ≠ passedLine := by
  refine ne_passedLine '-' (Row.mem_line (Row.mem_put ?_)) (by decide)
  rw [String.toList_ofList, List.mem_replicate]
  exact ⟨Nat.ne_of_gt (Nat.le_max_left 1 _), rfl⟩

theorem ne_passedLine_of_mem_body {colour : Bool} {path : Path} {p : Problem}
    {marked? : Option MarkedLine} {line : String} (h : line ∈ body colour path p marked?) :
    line ≠ passedLine := by
  cases marked? with
  | none =>
    simp only [body, List.mem_cons, List.not_mem_nil, or_false] at h
    rcases h with rfl | rfl | rfl
    · exact place_ne_passedLine colour _ path _ _
    · exact side_ne_passedLine colour _
    · exact side_ne_passedLine colour _
  | some m =>
    simp only [body, List.mem_cons, List.not_mem_nil, or_false] at h
    rcases h with h | h | h | h | h <;> rw [h]
    · exact place_ne_passedLine colour _ path _ _
    · exact side_ne_passedLine colour _
    · exact sourceRow_ne_passedLine colour m _
    · exact markRow_ne_passedLine colour m _
    · exact side_ne_passedLine colour _

theorem ne_passedLine_of_mem_lines {colour : Bool} {path : Path} {text : List Char} {p : Problem}
    {line : String} (h : line ∈ lines colour path text p) : line ≠ passedLine := by
  rcases List.mem_cons.mp h with rfl | h
  · exact heading_ne_passedLine colour p
  · exact ne_passedLine_of_mem_body h

end Excerpt

/-! ### Reports and statistics -/

namespace Report

theorem ne_passedLine_of_mem_excerpt {fs : FileSystem} {colour : Bool} {d : Diagnostic}
    {line : String} (h : line ∈ excerpt fs colour d) : line ≠ passedLine := by
  rcases List.mem_append.mp h with h | h
  · cases hread : fs.read d.file with
    | ok text =>
      rw [hread] at h
      exact Excerpt.ne_passedLine_of_mem_lines h
    | error e =>
      rw [hread] at h
      rw [List.mem_singleton.mp h]
      exact bareLine_ne_passedLine _ d.problem
  · rw [List.mem_singleton.mp h]
    decide

theorem passedLine_mem_summary_iff (r : Report) :
    passedLine ∈ r.summary ↔ r.diagnostics = [] ∧ r.failures = [] := by
  unfold summary
  cases r.diagnostics with
  | nil => cases r.failures <;> simp [countLine]
  | cons d ds => simp [(countLine_ne_passedLine (Nat.succ_ne_zero ds.length)).symm]

/-- The summary says it, if the report is for people and has nothing in it, and no other line
does. -/
theorem passedLine_mem_write_iff (fs : FileSystem) (colour : Bool) (format : Format) (r : Report) :
    passedLine ∈ (r.write fs colour format).results
      ↔ format.isStructured = false ∧ r.diagnostics = [] ∧ r.failures = [] := by
  cases format with
  | full =>
    have hexcerpts : passedLine ∉ r.diagnostics.flatMap (excerpt fs colour) := by
      intro h
      obtain ⟨d, -, hd⟩ := List.mem_flatMap.mp h
      exact ne_passedLine_of_mem_excerpt hd rfl
    simp [write, full, hexcerpts, passedLine_mem_summary_iff, Format.isStructured]
  | concise =>
    have hlines : passedLine ∉ r.diagnostics.map (conciseLine colour fs.cwd) := by
      intro h
      obtain ⟨d, -, hd⟩ := List.mem_map.mp h
      exact conciseLine_ne_passedLine _ _ d hd
    have hblank : passedLine ∉ if r.diagnostics.isEmpty then [] else [""] := by
      split
      · exact List.not_mem_nil
      · decide
    rw [write, concise, List.mem_append, List.mem_append, passedLine_mem_summary_iff]
    simp only [hlines, hblank, false_or, Format.isStructured, true_and]
  | github =>
    have hlines : passedLine ∉ r.diagnostics.map annotation := by
      intro h
      obtain ⟨d, -, hd⟩ := List.mem_map.mp h
      exact annotation_ne_passedLine d hd
    simp [write, github, Output.ofResults, hlines, Format.isStructured]
  | json =>
    have hdocument : passedLine ∉ [String.ofList r.toJson.pretty] := by
      intro h
      exact pretty_toJson_ne_passedLine r (List.mem_singleton.mp h).symm
    simp only [write, json, Output.ofResults, hdocument, Format.isStructured]
    simp

end Report

theorem RuleCount.line_ne_passedLine (colour : Bool) (c : RuleCount) :
    c.line colour ≠ Report.passedLine := by
  obtain ⟨d, ds, hdigits, hd⟩ := Json.exists_toDigits_eq_cons c.count
  have hmem : d ∈ (toString c.count).toList := by
    show d ∈ (String.ofList (Nat.toDigits 10 c.count)).toList
    rw [String.toList_ofList, hdigits]
    exact List.mem_cons_self ..
  have hpassed : Report.passedLine.toList.any (·.isDigit) = false := rfl
  refine Report.ne_passedLine d ?_ fun hno => List.any_eq_false.mp hpassed d hno hd
  rw [line, String.toList_append, String.toList_append, List.mem_append, List.mem_append]
  refine .inl (.inl (mem_paint ?_))
  rw [String.toList_append, List.mem_append]
  exact .inr hmem

theorem passedLine_not_mem_usedLines (config? : Option Path) :
    Report.passedLine ∉ usedLines config? := by
  cases config? with
  | none => exact List.not_mem_nil
  | some file =>
    have hused : "Used '" ++ file.text ++ "'" ≠ Report.passedLine :=
      Report.ne_passedLine 'U' (by simp) (by decide)
    simp only [usedLines, List.mem_cons, List.not_mem_nil, or_false, not_or]
    exact ⟨by decide, hused.symm⟩

theorem passedLine_not_mem_timeLines (elapsed : String) :
    Report.passedLine ∉ Run.timeLines elapsed := by
  have htime : "Checked files in: " ++ elapsed ≠ Report.passedLine :=
    Report.ne_passedLine 'C' (by simp) (by decide)
  simp only [Run.timeLines, List.mem_cons, List.not_mem_nil, or_false, not_or]
  exact ⟨by decide, htime.symm⟩

theorem passedLine_mem_statisticsLines_iff (colour : Bool) (config? : Option Path)
    (ds : List Diagnostic) :
    Report.passedLine ∈ statisticsLines colour config? ds ↔ ds = [] := by
  cases ds with
  | nil => simp [statisticsLines]
  | cons d ds =>
    have hcounts : Report.passedLine ∉ (countByRule (d :: ds)).map (·.line colour) := by
      intro h
      obtain ⟨c, -, hc⟩ := List.mem_map.mp h
      exact c.line_ne_passedLine colour hc
    simp [statisticsLines, hcounts, passedLine_not_mem_usedLines]

/-! ### The run -/

theorem Run.nothingLine_ne_passedLine (colour : Bool) :
    Run.nothingLine colour ≠ Report.passedLine := by
  cases colour with
  | false => decide
  | true => decide

/-- Statistics look at the diagnostics alone, a report looks at the failures too. -/
theorem Run.passedLine_mem_present_iff (fs : FileSystem) (colour : Bool) (q : Request)
    (elsewhere? : Option Path) (r : Report) :
    Report.passedLine ∈ (Run.present fs colour q elsewhere? r).results
      ↔ r.diagnostics = []
        ∧ (q.statistics = true ∨ q.format.isStructured = false ∧ r.failures = []) := by
  unfold Run.present
  cases hstatistics : q.statistics with
  | true =>
    simp only [if_true, passedLine_mem_statisticsLines_iff, true_or, and_true]
  | false =>
    have hused : Report.passedLine ∉ if q.isAnnotated then usedLines elsewhere? else [] := by
      split
      · exact passedLine_not_mem_usedLines elsewhere?
      · exact List.not_mem_nil
    simp only [Bool.false_eq_true, if_false, Output.results_append, Output.ofResults,
      List.mem_append, hused, or_false, Report.passedLine_mem_write_iff, false_or]
    exact and_left_comm

namespace Environment

variable {env : Environment} {q : Request} {found : List FoundConfig} {results : List FileResult}

theorem passedLine_mem_results_of_checks (h : env.Checks q found results) (colour : Bool)
    (elapsed : String) :
    Report.passedLine ∈ ((env.check colour q).outputAfter elapsed).results
      ↔ (¬ ∃ r ∈ results, r.Flagged)
        ∧ (q.statistics = true
          ∨ q.format.isStructured = false ∧ ¬ ∃ r ∈ results, r.Failed) := by
  have htime : Report.passedLine ∉
      if q.timed && q.isAnnotated then Run.timeLines elapsed else [] := by
    split
    · exact passedLine_not_mem_timeLines elapsed
    · exact List.not_mem_nil
  rw [check_of_checks h]
  simp only [Run.outputAfter, Output.results_append, Output.ofNotices, Output.ofResults,
    List.nil_append, List.mem_append, htime, or_false, outputFor, Run.passedLine_mem_present_iff,
    diagnostics_ofResults_eq_nil_iff]
  rw [show (Report.ofResults results).failures = results.filterMap (·.failure?) from rfl,
    filterMap_failure?_eq_nil_iff]

theorem checks_of_passedLine_mem {colour : Bool} {elapsed : String}
    (h : Report.passedLine ∈ ((env.check colour q).outputAfter elapsed).results) :
    ∃ found results, env.Checks q found results := by
  rcases check_cases env colour q with ⟨notices, f, hfailed⟩ | ⟨found, hnothing⟩ | hchecks
  · rw [hfailed] at h
    exact absurd h List.not_mem_nil
  · rw [check_of_findsNothing hnothing] at h
    have heq : Report.passedLine = Run.nothingLine colour := by
      simpa [Run.outputAfter, Output.ofResults] using h
    exact absurd heq.symm (Run.nothingLine_ne_passedLine colour)
  · exact hchecks

/-- When nothing is flagged, the run ends well unless some file could not be checked. -/
theorem code_ne_zero_iff_of_checks {args : List String} {i : Invocation} (colour : Bool)
    (elapsed : String) (h : Invocation.ofArgs args = .ok i)
    (hchecks : env.Checks i.request found results) (hclean : ¬ ∃ r ∈ results, r.Flagged) :
    (env.program colour elapsed args).code ≠ 0 ↔ ∃ r ∈ results, r.Failed := by
  rw [code_of_checks colour elapsed h hchecks, ← statusFor_eq_error_iff i.request]
  have hfailure : Run.statusFor i.request results ≠ .failure := by
    intro hstatus
    exact hclean ((statusFor_eq_failure_iff i.request results).mp hstatus).2
  cases hstatus : Run.statusFor i.request results with
  | success => decide
  | failure => exact absurd hstatus hfailure
  | error => decide

/-- That all checks have passed is written by a run that checked files and found nothing in them,
either in statistics or in a report for people without failures.  Such a run ends well, unless it
shows statistics and some file could not be checked; then it ends with an error all the same. -/
theorem passedLine_written (env : Environment) (colour : Bool) (elapsed : String)
    {args : List String} {i : Invocation} (h : Invocation.ofArgs args = .ok i) :
    let lines := ((env.check (colour && !i.noColour) i.request).outputAfter elapsed).results
    let ending := env.program colour elapsed args
    ending.stdout = textOfLines lines
    ∧ (Report.passedLine ∈ lines ↔
        ∃ found results, env.Checks i.request found results
          ∧ (¬ ∃ r ∈ results, r.Flagged)
          ∧ (i.request.statistics = true
            ∨ i.request.format.isStructured = false ∧ ¬ ∃ r ∈ results, r.Failed))
    ∧ (Report.passedLine ∈ lines ∧ ending.code ≠ 0 ↔
        i.request.statistics = true ∧
          ∃ found results, env.Checks i.request found results
            ∧ (¬ ∃ r ∈ results, r.Flagged) ∧ ∃ r ∈ results, r.Failed) := by
  intro lines ending
  have hlines {found : List FoundConfig} {results : List FileResult}
      (hchecks : env.Checks i.request found results) :=
    passedLine_mem_results_of_checks hchecks (colour && !i.noColour) elapsed
  refine ⟨stdout_program colour elapsed h, ⟨?_, ?_⟩, ⟨?_, ?_⟩⟩
  · intro hmem
    obtain ⟨found, results, hchecks⟩ := checks_of_passedLine_mem hmem
    exact ⟨found, results, hchecks, (hlines hchecks).mp hmem⟩
  · rintro ⟨found, results, hchecks, hshown⟩
    exact (hlines hchecks).mpr hshown
  · rintro ⟨hmem, hcode⟩
    obtain ⟨found, results, hchecks⟩ := checks_of_passedLine_mem hmem
    obtain ⟨hclean, hshown⟩ := (hlines hchecks).mp hmem
    have hfailed := (code_ne_zero_iff_of_checks colour elapsed h hchecks hclean).mp hcode
    have hstatistics := hshown.resolve_right fun hreport => hreport.2 hfailed
    exact ⟨hstatistics, found, results, hchecks, hclean, hfailed⟩
  · rintro ⟨hstatistics, found, results, hchecks, hclean, hfailed⟩
    exact ⟨(hlines hchecks).mpr ⟨hclean, .inl hstatistics⟩,
      (code_ne_zero_iff_of_checks colour elapsed h hchecks hclean).mpr hfailed⟩

/-- A file with its marker passes, with the time taken.  Statistics of a file that is not YAML say
that it passes too, and the run ends with an error. -/
theorem passedLine_written_two_runs :
    let good := withFile "a.yaml" "---\na: 1\n"
    let broken := withFile "b.yaml" "a: \"b\n"
    Report.passedLine ∈ ((good.check true
      { paths := [⟨"a.yaml"⟩], timed := true }).outputAfter "1ms").results
    ∧ Report.passedLine ∈ ((broken.check true
      { paths := [⟨"b.yaml"⟩], format := .json, statistics := true }).outputAfter "1ms").results
    ∧ (broken.program true "1ms"
      ["check", "--statistics", "--output-format=json", "b.yaml"]).code ≠ 0 := by
  intro good broken
  have hgood :
      (withFile "a.yaml" "---\na: 1\n").Checks { paths := [⟨"a.yaml"⟩], timed := true } [] _ :=
    ⟨by rfl, List.isEmpty_eq_false_iff.mp (by decide +kernel), ⟨.defaults, {}⟩, rfl, rfl⟩
  have hbroken : (withFile "b.yaml" "a: \"b\n").Checks
      { paths := [⟨"b.yaml"⟩], format := .json, statistics := true } [] _ :=
    ⟨by rfl, List.isEmpty_eq_false_iff.mp (by decide +kernel), ⟨.defaults, {}⟩, rfl, rfl⟩
  have hgoodArgs : Invocation.ofArgs ["check", "-w", "a.yaml"]
      = .ok ⟨{ paths := [⟨"a.yaml"⟩], timed := true }, none, false⟩ := rfl
  have hbrokenArgs :
      Invocation.ofArgs ["check", "--statistics", "--output-format=json", "b.yaml"]
        = .ok ⟨{ paths := [⟨"b.yaml"⟩], format := .json, statistics := true }, none, false⟩ := rfl
  have hpassed := (passedLine_written good true "1ms" hgoodArgs).2.1.mpr
    ⟨_, _, hgood, (filterMap_findings?_eq_nil_iff _).mp (List.isEmpty_iff.mp (by decide +kernel)),
      .inr ⟨rfl, (filterMap_failure?_eq_nil_iff _).mp (List.isEmpty_iff.mp (by decide +kernel))⟩⟩
  have hfailed := (passedLine_written broken true "1ms" hbrokenArgs).2.2.mpr
    ⟨rfl, _, _, hbroken,
      (filterMap_findings?_eq_nil_iff _).mp (List.isEmpty_iff.mp (by decide +kernel)),
      Classical.not_not.mp fun hnone => List.isEmpty_eq_false_iff.mp (by decide +kernel)
        ((filterMap_failure?_eq_nil_iff _).mpr hnone)⟩
  exact ⟨hpassed, hfailed⟩

/-- Statistics say that all checks have passed although the only file was not checked. -/
theorem passed_without_a_check :
    (withFile "b.yaml" "a: \"b\n").program false "1ms" ["check", "--statistics", "b.yaml"]
      = { code := ExitStatus.error.code
          stdout := textOfLines [Report.passedLine]
          stderr := "Error: Failed to get checks for file: b.yaml: Failed to parse b.yaml at line "
            ++ "1 column 4: while scanning a quoted scalar, found unexpected end of stream\n" } := by
  decide +kernel

end Environment

end DocMark
