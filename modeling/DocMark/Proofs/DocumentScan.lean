import DocMark.DocumentStart

/-!
# The rule about document markers as a scan

The rule looks at one window at a time and keeps no state.  Here is the other way to say what it
finds: a reader goes through the tokens once and remembers only whether a document is about to begin
(`ScanState`).  The token before the current one tells that state (`ScanState.behind`), so every
window gives what the reader reports at its token, and the two agree over any stream.

Main statements:

* `checkMissing_eq_read` — one window against one step of the reader;
* `filter_isMissing_windowsAfter` — from any point of a stream on, windows and reader agree;
* `windows_refine_scan` — the whole rule: a missing marker is what the reader reports, and where
  markers are forbidden each of them is reported once.
-/

namespace DocMark.DocumentStart

/-- What the reader remembers. -/
inductive ScanState where
  /-- A document begins here, unless the stream goes on to a marker or ends. -/
  | boundary
  /-- The reader is in a document, or before the stream. -/
  | inside
  deriving DecidableEq, Repr

namespace ScanState

/-- The state behind a token of this kind, whatever the state before it was. -/
def behind : TokenKind → ScanState
  | .streamStart => boundary
  | .documentEnd => boundary
  | .directive => boundary
  | _ => inside

/-- What the reader reports of a token. -/
def read : ScanState → Token → List Problem
  | inside, _ => []
  | boundary, t =>
    match t.kind with
    | .documentStart => []
    | .directive => []
    | .streamEnd => []
    | _ => [Violation.missing.problem (t.line + 1) 1]

end ScanState

/-- What the reader reports of the tokens that are still to come. -/
def scan : ScanState → List Token → List Problem
  | _, [] => []
  | s, t :: ts => s.read t ++ scan (.behind t.kind) ts

/-- The problem reports a missing marker. -/
def isMissing (p : Problem) : Bool := p.message = Violation.missing.message

/-! ### One window -/

theorem opensDocument_iff (k : TokenKind) :
    opensDocument k = true ↔ ScanState.behind k = .boundary := by
  cases k <;> decide

theorem read_boundary (t : Token) :
    ScanState.boundary.read t =
      if isMarkerOrEnd t.kind then [] else [Violation.missing.problem (t.line + 1) 1] := by
  obtain ⟨kind, line, column⟩ := t
  cases kind <;> rfl

/-- The window needs no more than the reader remembers. -/
theorem checkMissing_eq_read (prev t : Token) :
    checkMissing prev t = (ScanState.behind prev.kind).read t := by
  unfold checkMissing
  by_cases hopens : opensDocument prev.kind = true
  · rw [(opensDocument_iff _).mp hopens, read_boundary, hopens]
    cases isMarkerOrEnd t.kind <;> rfl
  · have hinside : ScanState.behind prev.kind = .inside := by
      rcases h : ScanState.behind prev.kind with _ | _
      · exact absurd ((opensDocument_iff _).mpr h) hopens
      · rfl
    simp [hinside, hopens, ScanState.read]

/-- Remarks on empty lines are told apart from those on a missing marker. -/
theorem filter_isMissing_checkEmptyLines (o : Options) (prev t : Token) :
    (checkEmptyLines o prev t).filter isMissing = [] := by
  have hmany (line column : Nat) :
      isMissing (Violation.tooManyEmptyLines.problem line column) = false := rfl
  have hfew (line column : Nat) :
      isMissing (Violation.tooFewEmptyLines.problem line column) = false := rfl
  unfold checkEmptyLines
  split
  · rw [List.filter_append]
    split <;> split <;> simp [hmany, hfew]
  · rfl

theorem filter_isMissing_checkMissing (prev t : Token) :
    (checkMissing prev t).filter isMissing = checkMissing prev t := by
  unfold checkMissing
  split <;> rfl

/-- The state of a reader that has just read this token, or nothing yet. -/
def stateAfter (prev : Option Token) : ScanState :=
  match prev with
  | none => .inside
  | some t => .behind t.kind

theorem filter_isMissing_check {o : Options} (hpresent : o.present = true) (w : Window) :
    (check o w).filter isMissing = (stateAfter w.prev).read w.token := by
  rw [check, if_pos hpresent]
  cases hprev : w.prev with
  | none => rfl
  | some prev =>
    show (checkMissing prev w.token ++ checkEmptyLines o prev w.token).filter isMissing = _
    rw [List.filter_append, filter_isMissing_checkMissing, filter_isMissing_checkEmptyLines,
      List.append_nil, checkMissing_eq_read]
    rfl

/-! ### The whole stream -/

theorem filter_isMissing_windowsAfter {o : Options} (hpresent : o.present = true)
    (prev : Option Token) (ts : List Token) :
    ((windowsAfter prev ts).flatMap (check o)).filter isMissing = scan (stateAfter prev) ts := by
  induction ts generalizing prev with
  | nil => rfl
  | cons t ts ih =>
    rw [windowsAfter, List.flatMap_cons, List.filter_append, filter_isMissing_check hpresent,
      ih (some t)]
    rfl

theorem flatMap_windowsAfter_of_forbidden {o : Options} (habsent : o.present = false)
    (prev : Option Token) (ts : List Token) :
    (windowsAfter prev ts).flatMap (check o) = ts.flatMap checkForbidden := by
  induction ts generalizing prev with
  | nil => rfl
  | cons t ts ih =>
    rw [windowsAfter, List.flatMap_cons, List.flatMap_cons, ih (some t)]
    simp [check, habsent]

theorem flatMap_checkForbidden (ts : List Token) :
    ts.flatMap checkForbidden =
      (ts.filter (·.kind = .documentStart)).map fun t =>
        Violation.forbidden.problem (t.line + 1) (t.column + 1) := by
  induction ts with
  | nil => rfl
  | cons t ts ih =>
    by_cases hkind : t.kind = .documentStart
    · simp [checkForbidden, hkind, ih]
    · simp [checkForbidden, hkind, ih]

/-- Where the marker is required, the windows report it missing exactly where the reader does, who
starts as if inside a document.  Where it is forbidden, they report each marker once and nothing
else. -/
theorem windows_refine_scan (o : Options) (tokens : List Token) :
    (o.present = true →
      ((windows tokens).flatMap (check o)).filter isMissing = scan .inside tokens)
    ∧ (o.present = false →
      (windows tokens).flatMap (check o) =
        (tokens.filter (·.kind = .documentStart)).map fun t =>
          Violation.forbidden.problem (t.line + 1) (t.column + 1)) := by
  refine ⟨fun hpresent => filter_isMissing_windowsAfter hpresent none tokens, fun habsent => ?_⟩
  rw [windows, flatMap_windowsAfter_of_forbidden habsent, flatMap_checkForbidden]

/-- Two directives in a row open one document, while the end of a document that never began is
reported and still leads to the next. -/
theorem windows_refine_scan_repeated :
    let tokens : List Token :=
      [⟨.streamStart, 0, 0⟩, ⟨.directive, 0, 0⟩, ⟨.directive, 1, 0⟩, ⟨.documentStart, 2, 0⟩,
        ⟨.documentEnd, 3, 0⟩, ⟨.documentEnd, 4, 0⟩, ⟨.scalar, 5, 2⟩, ⟨.streamEnd, 6, 0⟩]
    ((windows tokens).flatMap (check {})).filter isMissing
        = [Violation.missing.problem 5 1, Violation.missing.problem 6 1]
    ∧ (windows tokens).flatMap (check { present := false, minEmptyLines := 3, maxEmptyLines := 0 })
        = [Violation.forbidden.problem 3 1] := by
  intro tokens
  exact ⟨(windows_refine_scan _ tokens).1 rfl, (windows_refine_scan _ tokens).2 rfl⟩

end DocMark.DocumentStart
