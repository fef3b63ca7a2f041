import DocMark.Proofs.DiagnosticOrder
import DocMark.Proofs.JsonLayout
import DocMark.Proofs.RunOutput

/-!
# The report as one document

A report for programs is one object and the end of a line.  A reader gets back from it what was
written: the diagnostics in order, and one entry for each file that could not be checked.

Main statements:

* `Report.parse_of_document_toJson` — the reader gets the report back;
* `Environment.stdout_json` — what a run writes that reports in this way.
-/

namespace DocMark

namespace Json

theorem fitsItems_map {α : Type} {depth : Nat} {f : α → Json} {as : List α}
    (h : ∀ a ∈ as, fits depth (f a) = true) : fitsItems depth (as.map f) = true := by
  induction as with
  | nil => rfl
  | cons a as ih =>
    rw [List.map_cons, fitsItems, Bool.and_eq_true]
    exact ⟨h a (List.mem_cons_self ..), ih fun b hb => h b (List.mem_cons_of_mem a hb)⟩

/-- An object has a brace before everything else. -/
theorem head?_skip_of_document_object {fields : List (String × Json)} {text : List Char}
    (h : Document (.object fields) text) : (skip text).head? = some '\x7b' := by
  obtain ⟨g, t, g', hg, -, ⟨ts, inner, -, -, rfl⟩, rfl⟩ := h
  rw [skip_gap hg]
  exact congrArg List.head? (skip_cons rfl _)

end Json

/-- Its line and its column are numbers of 64 bits. -/
def Problem.IsNear (p : Problem) : Prop :=
  p.line < 18446744073709551616 ∧ p.column < 18446744073709551616

theorem Diagnostic.fits_toJson (depth : Nat) {d : Diagnostic} (h : d.problem.IsNear) :
    Json.fits (depth + 1) d.toJson = true := by
  obtain ⟨hline, hcolumn⟩ := h
  simp only [toJson, Json.fits, Json.fitsFields, Bool.and_true, Bool.true_and, Bool.and_eq_true,
    decide_eq_true_eq]
  omega

namespace Report

theorem fits_failureJson (depth : Nat) (file : Path) (f : Failure) :
    Json.fits (depth + 1) (failureJson file f) = true := by
  cases depth <;> rfl

theorem fits_toJson {r : Report} (h : ∀ d ∈ r.diagnostics, d.problem.IsNear) (depth : Nat) :
    Json.fits (depth + 3) r.toJson = true := by
  have hdiagnostics : Json.fitsItems (depth + 1) (r.diagnostics.map Diagnostic.toJson) = true :=
    Json.fitsItems_map fun d hd => d.fits_toJson depth (h d hd)
  simp only [toJson, Json.fits, Json.fitsFields, hdiagnostics, Bool.true_and, Bool.and_true]
  exact Json.fitsItems_map fun x _ => fits_failureJson depth x.1 x.2

/-- The reader gets the report back, whatever white space surrounds it. -/
theorem parse_of_document_toJson {r : Report} {text : List Char} (h : Json.Document r.toJson text)
    (hnear : ∀ d ∈ r.diagnostics, d.problem.IsNear) : Json.parse text = some r.toJson :=
  Json.parse_of_document h (fits_toJson hnear 124)

end Report

/-! ### What a run writes -/

/-- The object that lists these diagnostics, and what went wrong with files. -/
def listing (ds : List Diagnostic) (failures : List (Path × Failure)) : Json :=
  .object
    [("diagnostics", .array (ds.map Diagnostic.toJson)),
      ("errors", .array (failures.map fun (file, f) =>
        .object [("file", .string file.text), ("error", .string f.text)]))]

/-- The text is one object and the end of its line.  The object lists these diagnostics, which are
those of the results in order, and one entry for each result that is a failure. -/
structure ListedIn (text : List Char) (results : List FileResult) (ds : List Diagnostic) :
    Prop where
  perm : ds.Perm (results.flatMap (·.diagnostics))
  sorted : ds.Pairwise fun a b => a.le b
  document : ∃ body, text = body ++ ['\n'] ∧
    Json.Document (listing ds (results.filterMap (·.failure?))) body
  /-- A reader of 64 bits gets the object back. -/
  readable : (∀ d ∈ ds, d.problem.IsNear) →
    Json.parse text = some (listing ds (results.filterMap (·.failure?)))

/-- The end of the line is white space behind the object. -/
theorem ListedIn.document_text {text : List Char} {results : List FileResult}
    {ds : List Diagnostic} (h : ListedIn text results ds) :
    Json.Document (listing ds (results.filterMap (·.failure?))) text := by
  obtain ⟨body, rfl, g, t, g', hg, hg', hlaid, rfl⟩ := h.document
  exact ⟨g, t, g' ++ ['\n'], hg, hg'.append (Json.gap_newline 0), hlaid, by simp⟩

namespace Report

theorem listedIn_pretty (results : List FileResult) :
    ListedIn ((ofResults results).toJson.pretty ++ ['\n']) results
      (ofResults results).diagnostics where
  perm := Diagnostic.sort_perm _
  sorted := Diagnostic.pairwise_sort _
  document := ⟨_, rfl, List.append_nil (Json.pretty _) ▸ Json.document_pretty _ Json.gap_nil⟩
  readable := parse_of_document_toJson (Json.document_pretty _ (Json.gap_newline 0))

end Report

namespace Environment

variable {env : Environment} {args : List String} {i : Invocation} {found : List FoundConfig}
  {results : List FileResult} (colour : Bool) (elapsed : String)

theorem toList_stdout_of_checks_json (h : Invocation.ofArgs args = .ok i)
    (hjson : i.request.format = .json) (hplain : i.request.statistics = false)
    (hchecks : env.Checks i.request found results) :
    (env.program colour elapsed args).stdout.toList =
      (Report.ofResults results).toJson.pretty ++ ['\n'] := by
  rw [stdout_of_checks colour elapsed h hchecks]
  simp [outputFor, Run.present, Request.isAnnotated, Report.write, Report.json, hjson, hplain,
    Format.isStructured, Output.ofResults, textOfLines]

/-- The remark that there is no file is no object, and nothing that can be read. -/
theorem nothingLine_not_json (colour : Bool) :
    let text := (Run.nothingLine colour ++ "\n").toList
    (¬ ∃ fields, Json.Document (.object fields) text) ∧ Json.parse text = none := by
  intro text
  constructor
  · rintro ⟨fields, hdocument⟩
    have hbrace := Json.head?_skip_of_document_object hdocument
    revert hbrace
    cases colour with
    | false => decide
    | true => decide
  · rw [← Option.isNone_iff_eq_none]
    cases colour with
    | false => decide
    | true => decide

/-- A run that is asked for one document, and comes to a status, writes one object if there is a
file to check, and then it is the one on its results, whatever else was asked for.  Without a file
it writes a remark that cannot be read as JSON. -/
theorem stdout_json {s : ExitStatus} (h : Invocation.ofArgs args = .ok i)
    (hjson : i.request.format = .json) (hplain : i.request.statistics = false)
    (hresult : (env.check (colour && !i.noColour) i.request).result = .ok s) :
    let text := (env.program colour elapsed args).stdout.toList
    ((∃ fields, Json.Document (.object fields) text)
      ↔ ∃ found results, env.Checks i.request found results)
    ∧ (∀ found results, env.Checks i.request found results →
        ListedIn text results (Report.ofResults results).diagnostics)
    ∧ ((¬ ∃ found results, env.Checks i.request found results) →
        text = (Run.nothingLine (colour && !i.noColour) ++ "\n").toList
          ∧ Json.parse text = none) := by
  intro text
  have hlisted : ∀ found results, env.Checks i.request found results →
      ListedIn text results (Report.ofResults results).diagnostics := by
    intro found results hchecks
    have htext : text = _ := toList_stdout_of_checks_json colour elapsed h hjson hplain hchecks
    rw [htext]
    exact Report.listedIn_pretty results
  have hnothing : (¬ ∃ found results, env.Checks i.request found results) →
      text = (Run.nothingLine (colour && !i.noColour) ++ "\n").toList := by
    intro hno
    obtain ⟨found, hfound⟩ := (findsNothing_or_checks hresult).resolve_right hno
    exact congrArg String.toList (stdout_of_findsNothing colour elapsed h hfound)
  refine ⟨⟨?_, ?_⟩, hlisted, fun hno => ⟨hnothing hno, ?_⟩⟩
  · intro hdocument
    by_contra hno
    rw [hnothing hno] at hdocument
    exact (nothingLine_not_json _).1 hdocument
  · rintro ⟨found, results, hchecks⟩
    exact ⟨_, (hlisted found results hchecks).document_text⟩
  · rw [hnothing hno]
    exact (nothingLine_not_json _).2

/-- A file that is not YAML is listed in one object, with the time asked for too; among files of
other kinds there is nothing to list. -/
theorem stdout_json_one_file :
    let args := ["check", "--output-format", "json", "-w", "."]
    (∃ fields, Json.Document (.object fields)
      ((withFile "b.yaml" "a: \"b\n").program true "1ms" args).stdout.toList)
    ∧ Json.parse ((withFile "a.txt" "").program true "1ms" args).stdout.toList = none := by
  intro args
  let q : Request := { paths := [⟨"."⟩], timed := true, format := .json }
  have hargs : Invocation.ofArgs args = .ok ⟨q, none, false⟩ := rfl
  have hchecks : (withFile "b.yaml" "a: \"b\n").Checks q [] _ :=
    ⟨by rfl, List.isEmpty_eq_false_iff.mp (by decide +kernel), ⟨.defaults, {}⟩, rfl, rfl⟩
  have hnothing : (withFile "a.txt" "").FindsNothing q [] :=
    ⟨by rfl, List.isEmpty_iff.mp (by decide +kernel)⟩
  have hone := congrArg Run.result (check_of_checks hchecks true)
  have hnone := congrArg Run.result (check_of_findsNothing hnothing true)
  exact ⟨(stdout_json true "1ms" hargs rfl rfl hone).1.mpr ⟨_, _, hchecks⟩,
    ((stdout_json true "1ms" hargs rfl rfl hnone).2.2
      fun ⟨_, _, h⟩ => hnothing.not_checks h).2⟩

/-- Asked for JSON about a directory without YAML, the run ends well, but what it writes is no
object. -/
theorem nothing_found_not_document :
    let env := withFile "a.txt" ""
    let args := ["check", "--output-format", "json", "."]
    ∃ i, Invocation.ofArgs args = .ok i ∧ i.request.format = .json
      ∧ i.request.statistics = false ∧ (env.check false i.request).result = .ok .success
      ∧ (env.program false "1ms" args).stdout
          = "Warning: No YAML files found under the given path(s).\n"
      ∧ ¬ ∃ fields,
          Json.Document (.object fields) (env.program false "1ms" args).stdout.toList := by
  intro env args
  have hstdout : (env.program false "1ms" args).stdout = Run.nothingLine false ++ "\n" := by
    decide +kernel
  have hnothing : (withFile "a.txt" "").FindsNothing { paths := [⟨"."⟩], format := .json } [] :=
    ⟨by rfl, List.isEmpty_iff.mp (by decide +kernel)⟩
  refine ⟨⟨{ paths := [⟨"."⟩], format := .json }, none, false⟩, rfl, rfl, rfl,
    congrArg Run.result (check_of_findsNothing hnothing false), hstdout, ?_⟩
  rw [hstdout]
  exact (nothingLine_not_json false).1

end Environment

end DocMark
