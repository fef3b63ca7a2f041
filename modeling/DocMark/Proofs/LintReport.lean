import Mathlib.Control.Monad.Basic
import DocMark.Lint
import DocMark.Proofs.DiagnosticOrder

/-!
# What linting a text comes to

`lint` goes through five stages, and what it gives can be said without any of them: nothing for a
file that is silent as a whole, the fault of a text that has no tokens, and else the findings of the
rule that are not silenced, each once, in the order of their places (`Reports`).

Main statements:

* `problems_eq_unsilenced` — going through the windows one by one finds what the rule finds in the
  whole stream, less what is silenced;
* `reports_sort` — sorting turns findings into a report of them;
* `lint_contract` — the three outcomes.
-/

namespace DocMark

/-- The first line says that the whole file is silent. -/
def SilentFile (text : List Char) : Prop :=
  ∃ first, (Text.lines text).head? = some first ∧
    Text.trim first = "# yamlint disable-file".toList

/-- What the rule finds in a token stream, in the order of the stream; nothing if it is off. -/
def Config.findings (config : Config) (tokens : List Token) : List Problem :=
  if config.rules.contains .documentStart then
    (windows tokens).flatMap (DocumentStart.check config.documentStart)
  else []

/-- The problems that the comments of a text do not silence. -/
def unsilenced (text : List Char) (ps : List Problem) : List Problem :=
  ps.filter fun p => !(Suppression.ofText text).skips p.line "document-start"

/-- Problems as diagnostics of a file. -/
def attributed (file : Path) (ps : List Problem) : List Diagnostic := ps.map (⟨file, ·⟩)

/-- A list of diagnostics that reports these problems of a file, and does it well. -/
structure Reports (file : Path) (ps : List Problem) (ds : List Diagnostic) : Prop where
  /-- Each problem is reported as often as it was found. -/
  perm : ds.Perm (attributed file ps)
  /-- Earlier places come first. -/
  sorted : ds.Pairwise fun a b => a.problem.AtOrBefore b.problem
  /-- What lies at one place is reported in the order in which it was found. -/
  stable : ∀ place, ds.filter (·.problem.place = place)
    = (attributed file ps).filter (·.problem.place = place)

/-! ### The stages -/

theorem skipsFile_ofText_iff (text : List Char) :
    (Suppression.ofText text).skipsFile = true ↔ SilentFile text := by
  simp only [Suppression.ofText, Option.any_eq_true, decide_eq_true_eq]
  rfl

theorem report_eq (config : Config) (s : Suppression) :
    config.report s = fun w =>
      if config.rules.contains .documentStart then
        (DocumentStart.check config.documentStart w).filter
          fun p => !s.skips p.line "document-start"
      else [] := by
  funext w
  simp [Config.report, Rule.all, Rule.check, Rule.name]

theorem problems_eq_unsilenced (config : Config) (text : List Char) (tokens : List Token) :
    problems config (Suppression.ofText text) tokens
      = unsilenced text (config.findings tokens) := by
  rw [problems, report_eq, unsilenced, Config.findings]
  cases config.rules.contains .documentStart with
  | false => simp
  | true => simp only [if_true, List.filter_flatMap]

theorem reports_sort (file : Path) (ps : List Problem) :
    Reports file ps (Diagnostic.sort (attributed file ps)) := by
  have hfile : ∀ d ∈ attributed file ps, d.file = file := by
    intro d hd
    obtain ⟨p, -, rfl⟩ := List.mem_map.mp hd
    rfl
  refine ⟨Diagnostic.sort_perm _, ?_, fun place => ?_⟩
  · refine (Diagnostic.pairwise_sort _).imp_of_mem fun {a b} ha hb hab => ?_
    have hab_file : a.file = b.file := by
      rw [hfile a ((Diagnostic.sort_perm _).mem_iff.mp ha),
        hfile b ((Diagnostic.sort_perm _).mem_iff.mp hb)]
    exact (Diagnostic.le_iff_atOrBefore hab_file).mp hab
  · -- All are of one file, so diagnostics at one place are not told apart by the order.
    refine Diagnostic.filter_sort_of_tied _ _ fun a ha b hb hpa hpb => ?_
    have hplace : a.problem.place = b.problem.place :=
      (of_decide_eq_true hpa).trans (of_decide_eq_true hpb).symm
    rw [Diagnostic.le_iff_atOrBefore ((hfile a ha).trans (hfile b hb).symm),
      ← Problem.isLE_compare_iff, Problem.compare_eq_of_place_eq hplace]
    rfl

/-! ### The order inside one window -/

namespace DocumentStart

/-- What is reported under a condition is reported at most. -/
theorem ite_sublist (p : Prop) [Decidable p] (ps : List Problem) :
    (if p then ps else []).Sublist ps := by
  split
  · exact List.Sublist.refl ps
  · exact List.nil_sublist ps

theorem messages_checkForbidden_sublist (t : Token) :
    ((checkForbidden t).map (·.message)).Sublist [Violation.forbidden.message] :=
  (ite_sublist _ [Violation.forbidden.problem _ _]).map _

theorem messages_checkMissing_sublist (prev t : Token) :
    ((checkMissing prev t).map (·.message)).Sublist [Violation.missing.message] :=
  (ite_sublist _ [Violation.missing.problem _ _]).map _

theorem messages_checkEmptyLines_sublist (o : Options) (prev t : Token) :
    ((checkEmptyLines o prev t).map (·.message)).Sublist
      [Violation.tooManyEmptyLines.message, Violation.tooFewEmptyLines.message] := by
  have hmany := ite_sublist (o.exceeds (emptyLines prev t))
    [Violation.tooManyEmptyLines.problem (t.line + 1) (t.column + 1)]
  have hfew := ite_sublist (o.fallsShort (emptyLines prev t))
    [Violation.tooFewEmptyLines.problem (t.line + 1) (t.column + 1)]
  exact ((ite_sublist _ _).trans (hmany.append hfew)).map _

/-- Every violation at most once in a window, and too many empty lines before too few. -/
theorem messages_check_sublist (o : Options) (w : Window) :
    ((check o w).map (·.message)).Sublist
      ([.forbidden, .missing, .tooManyEmptyLines, .tooFewEmptyLines].map Violation.message) := by
  unfold check
  split
  · split
    · exact List.nil_sublist _
    · next prev _ =>
      rw [List.map_append]
      exact ((messages_checkMissing_sublist prev w.token).append
        (messages_checkEmptyLines_sublist o prev w.token)).trans (List.sublist_cons_self _ _)
  · exact (messages_checkForbidden_sublist w.token).trans
      (List.singleton_sublist.mpr List.mem_cons_self)

end DocumentStart

/-! ### The contract -/

/-- A silent file has nothing to report, even if it has no tokens.  Of all others, those without
tokens give the fault that the scanner found, whatever the configuration; the rest give a report of
the findings that are not silenced.  Findings follow the tokens, and those of one token the order in
which the rule lists its violations. -/
theorem lint_contract (config : Config) (file : Path) (text : List Char) :
    (SilentFile text → lint config file text = .ok [])
    ∧ (¬ SilentFile text → ∀ e, tokenize text = .error e →
        ∀ other : Config, lint other file text = .error { e with file })
    ∧ (¬ SilentFile text → ∀ tokens, tokenize text = .ok tokens →
        ∃ ds, lint config file text = .ok ds
          ∧ Reports file (unsilenced text (config.findings tokens)) ds)
    ∧ ∀ w, ((DocumentStart.check config.documentStart w).map (·.message)).Sublist
        ([.forbidden, .missing, .tooManyEmptyLines, .tooFewEmptyLines].map
          DocumentStart.Violation.message) := by
  refine ⟨fun hsilent => ?_, fun hloud e he other => ?_, fun hloud tokens htokens => ?_,
    DocumentStart.messages_check_sublist config.documentStart⟩
  · simp only [lint, (skipsFile_ofText_iff text).mpr hsilent, if_true]
  · have hskips : ¬ (Suppression.ofText text).skipsFile = true :=
      fun h => hloud ((skipsFile_ofText_iff text).mp h)
    simp only [lint, if_neg hskips, he]
  · have hskips : ¬ (Suppression.ofText text).skipsFile = true :=
      fun h => hloud ((skipsFile_ofText_iff text).mp h)
    refine ⟨Diagnostic.sort (attributed file (unsilenced text (config.findings tokens))), ?_,
      reports_sort file _⟩
    simp only [lint, if_neg hskips, htokens, problems_eq_unsilenced]
    rfl

/-- A marker may be followed by too many empty lines and by too few at once: both remarks have one
place and are reported in this order.  The other two outcomes come from a text that is not YAML. -/
theorem lint_contract_one_place :
    let file : Path := ⟨"a.yaml"⟩
    let broken := "a: \"".toList
    let spaced := "---\n\n\na".toList
    let config : Config := ⟨.defaults, { minEmptyLines := 5, maxEmptyLines := 0 }⟩
    let info := "while scanning a quoted scalar, found unexpected end of stream"
    lint config file ("# yamlint disable-file\n".toList ++ broken) = .ok []
    ∧ lint ⟨.empty, {}⟩ file broken = .error ⟨file, info, 1, 4⟩
    ∧ ∃ ds, lint config file spaced = .ok ds ∧
        Reports file
          [DocumentStart.Violation.tooManyEmptyLines.problem 4 1,
            DocumentStart.Violation.tooFewEmptyLines.problem 4 1] ds := by
  intro file broken spaced config info
  have hbroken : ¬ SilentFile broken := by
    rw [← skipsFile_ofText_iff]
    decide
  have hspaced : ¬ SilentFile spaced := by
    rw [← skipsFile_ofText_iff]
    decide
  have hfault : tokenize broken = .error ⟨⟨""⟩, info, 1, 4⟩ := by
    have hscan : Yaml.scan broken = .error ⟨.quotedNotClosed, ⟨3, 1, 3⟩⟩ := by decide +kernel
    rw [tokenize, hscan]
    rfl
  have htokens : tokenize spaced = .ok [⟨.streamStart, 0, 0⟩, ⟨.documentStart, 0, 0⟩,
      ⟨.scalar, 3, 0⟩, ⟨.streamEnd, 3, 1⟩] := by
    have hscan : Yaml.scan spaced = .ok [⟨.streamStart, ⟨0, 1, 0⟩⟩, ⟨.documentStart, ⟨0, 1, 0⟩⟩,
        ⟨.scalar, ⟨6, 4, 0⟩⟩, ⟨.streamEnd, ⟨7, 5, 0⟩⟩] := by decide +kernel
    rw [tokenize, hscan]
    rfl
  exact ⟨(lint_contract config file _).1 ⟨_, rfl, by decide⟩,
    (lint_contract config file broken).2.1 hbroken _ hfault ⟨.empty, {}⟩,
    (lint_contract config file spaced).2.2.1 hspaced _ htokens⟩

end DocMark
