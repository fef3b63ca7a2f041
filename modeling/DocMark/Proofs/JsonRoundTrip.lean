import DocMark.Proofs.ReportDocument

/-!
# Reading reports back

A diagnostic that was written as JSON is read back as it was, message included, and so is a whole
report with all its diagnostics and failures in order.  Names and messages may be any texts, and
positions any numbers of 64 bits.

Main statements:

* `Diagnostic.ofText?_of_document` — a diagnostic is read back from any layout of it;
* `ReportContents.ofText?_of_document` — a report is read back from any layout of it;
* `json_read_back` — both, for what is written.
-/

namespace DocMark

/-! ### Diagnostics -/

theorem Json.document_compact (j : Json) : Document j j.compact :=
  ⟨[], j.compact, [], gap_nil, gap_nil, laid_compact j, by simp⟩

namespace Diagnostic

@[simp] theorem ofJson?_toJson (d : Diagnostic) : ofJson? d.toJson = some d := by
  simp [toJson, ofJson?, Json.field?, Json.text?, Json.natural?]

theorem ofText?_of_document {d : Diagnostic} {text : List Char} (h : Json.Document d.toJson text)
    (hnear : d.problem.IsNear) : ofText? text = some d := by
  rw [ofText?, Json.parse_of_document h (d.fits_toJson 126 hnear), Option.bind_some, ofJson?_toJson]

end Diagnostic

/-! ### Reports -/

/-- The items of a list. -/
def Json.items? : Json → Option (List Json)
  | array items => some items
  | _ => none

/-- What a program gets to know from a report: the diagnostics, and the name of each file that could
not be checked with what went wrong. -/
structure ReportContents where
  diagnostics : List Diagnostic
  errors : List (String × String)

namespace ReportContents

/-- The name of a file and what went wrong with it. -/
def errorOfJson? : Json → Option (String × String)
  | .object fields => do
    let file ← (Json.field? fields "file").bind Json.text?
    let error ← (Json.field? fields "error").bind Json.text?
    return (file, error)
  | _ => none

def ofJson? : Json → Option ReportContents
  | .object fields => do
    let diagnostics ← (Json.field? fields "diagnostics").bind Json.items?
    let errors ← (Json.field? fields "errors").bind Json.items?
    return ⟨← diagnostics.mapM Diagnostic.ofJson?, ← errors.mapM errorOfJson?⟩
  | _ => none

/-- The contents of the report that a text is. -/
def ofText? (text : List Char) : Option ReportContents := (Json.parse text).bind ofJson?

/-- All that is in a report. -/
def ofReport (r : Report) : ReportContents :=
  ⟨r.diagnostics, r.failures.map fun (file, f) => (file.text, f.text)⟩

@[simp] theorem errorOfJson?_failureJson (file : Path) (f : Failure) :
    errorOfJson? (Report.failureJson file f) = some (file.text, f.text) := by
  simp [Report.failureJson, errorOfJson?, Json.field?, Json.text?]

/-- What is read back part by part is read back as a list. -/
theorem mapM_map_eq_some {α β γ : Type} {write : α → β} {read : β → Option γ} {g : α → γ}
    (h : ∀ a, read (write a) = some (g a)) (as : List α) :
    (as.map write).mapM read = some (as.map g) := by
  rw [List.mapM_map, show read ∘ write = fun a => pure (g a) from funext h]
  exact List.mapM_pure

theorem ofJson?_toJson (r : Report) : ofJson? r.toJson = some (ofReport r) := by
  have hdiagnostics := mapM_map_eq_some Diagnostic.ofJson?_toJson r.diagnostics
  have herrors := mapM_map_eq_some (fun x => errorOfJson?_failureJson x.1 x.2) r.failures
  rw [List.map_id'] at hdiagnostics
  simp [Report.toJson, ofJson?, Json.field?, Json.items?, hdiagnostics, herrors, ofReport]

theorem ofText?_of_document {r : Report} {text : List Char} (h : Json.Document r.toJson text)
    (hnear : ∀ d ∈ r.diagnostics, d.problem.IsNear) : ofText? text = some (ofReport r) := by
  rw [ofText?, Report.parse_of_document_toJson h hnear, Option.bind_some, ofJson?_toJson]

end ReportContents

/-! ### What is written -/

theorem Report.toList_stdout_write_json (fs : FileSystem) (colour : Bool) (r : Report) :
    (r.write fs colour .json).stdout.toList = r.toJson.pretty ++ ['\n'] := by
  simp [write, json, Output.stdout, Output.ofResults, textOfLines]

/-- A diagnostic whose place has numbers of 64 bits is read back as it was from its text, whatever
its name and its message are; and from the text of a report its diagnostics are read back in order,
and so are the failures with the names of their files. -/
theorem json_read_back :
    (∀ d : Diagnostic, d.problem.IsNear → Diagnostic.ofText? d.toJson.compact = some d)
    ∧ ∀ (fs : FileSystem) (colour : Bool) (r : Report), (∀ d ∈ r.diagnostics, d.problem.IsNear) →
        ReportContents.ofText? (r.write fs colour .json).stdout.toList
          = some ⟨r.diagnostics, r.failures.map fun (file, f) => (file.text, f.text)⟩ := by
  refine ⟨fun d => Diagnostic.ofText?_of_document d.toJson.document_compact, ?_⟩
  intro fs colour r hnear
  rw [r.toList_stdout_write_json]
  exact ReportContents.ofText?_of_document
    (Json.document_pretty r.toJson (Json.gap_newline 0)) hnear

/-- A name with quotes, a backslash and a NUL, a message with controls and the words of an object,
and the greatest numbers that there are; and a failure beside it. -/
theorem json_read_back_greatest :
    let d : Diagnostic := ⟨⟨"a\"\\\x00/é.yaml"⟩,
      ⟨18446744073709551615, 0, "\",\"line\":7\x1f\r\n\x7f😀", ""⟩⟩
    let failure : Failure := ⟨["read\tb"], .other "\x08\x0c"⟩
    Diagnostic.ofText? d.toJson.compact = some d
    ∧ ReportContents.ofText?
        (Report.write ⟨.directory [], .root⟩ true .json ⟨[d, d], [(⟨"b"⟩, failure)]⟩).stdout.toList
      = some ⟨[d, d], [("b", failure.text)]⟩ := by
  intro d failure
  have hnear : d.problem.IsNear := ⟨by decide, by decide⟩
  refine ⟨json_read_back.1 d hnear, ?_⟩
  exact json_read_back.2 _ true ⟨[d, d], [(⟨"b"⟩, failure)]⟩
    (List.forall_mem_cons.mpr ⟨hnear, List.forall_mem_singleton.mpr hnear⟩)

end DocMark
