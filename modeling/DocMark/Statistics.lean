import DocMark.ExitStatus
import DocMark.Report

/-!
# Statistics

Instead of the diagnostics themselves, how many of them each rule has found.  The rule that has
found most comes first, and rules that have found equally many come in the order of their names.
-/

namespace DocMark

/-- A rule and how many diagnostics it has. -/
structure RuleCount where
  rule : String
  count : Nat
  deriving DecidableEq, Repr

namespace RuleCount

/-- Not after, in the order in which counts are shown. -/
def le (a b : RuleCount) : Bool := b.count < a.count || (a.count = b.count && a.rule ≤ b.rule)

/-- The number, set to the right in five columns, and the rule. -/
def line (colour : Bool) (c : RuleCount) : String :=
  let number := toString c.count
  paint colour .count (Excerpt.blanks (5 - number.length) ++ number) ++ " "
    ++ paint colour .tally c.rule

end RuleCount

/-- How many of these diagnostics each rule has. -/
def countByRule (ds : List Diagnostic) : List RuleCount :=
  let rules := ds.map (·.problem.rule)
  (rules.eraseDups.map fun r => ⟨r, rules.count r⟩).mergeSort RuleCount.le

/-- The lines that tell of a configuration from somewhere else. -/
def usedLines : Option Path → List String
  | some file => ["", "Used '" ++ file.text ++ "'"]
  | none => []

/-- The lines to show for diagnostics.  Where there are any, a configuration from somewhere else is
named too. -/
def statisticsLines (colour : Bool) (config? : Option Path) (ds : List Diagnostic) : List String :=
  if ds.isEmpty then [Report.passedLine]
  else (countByRule ds).map (·.line colour) ++ usedLines config?

/-- How a run with these diagnostics ends if nothing went wrong. -/
def statusOf (ds : List Diagnostic) : ExitStatus := if ds.isEmpty then .success else .failure

end DocMark
