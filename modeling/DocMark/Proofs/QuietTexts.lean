import Mathlib.Data.List.TakeWhile
import DocMark.Proofs.LintReport
import DocMark.Proofs.Reading

/-!
# Texts without content

A text of blanks and comments holds nothing to complain about.  The scanner reads it in one go on
its way to a first token that never comes, so the stream is over where it starts, and the rule about
document markers puts up with a stream that holds no document, whatever it asks for.

A text is quiet line by line (`isQuietLine`).  Read from the left it is a sequence of blanks, line
feeds and comments (`Quiet`), which is what the scanner skips round by round.

Main statements:

* `skipToTokenUpTo_of_quiet` — a quiet text is skipped to its end;
* `scan_of_quiet` — its tokens are the start and the end of the stream;
* `lint_of_quiet_lines` — it is clean.
-/

namespace DocMark

namespace Yaml

/-! ### Quiet lines -/

/-- Blanks, and after them a comment, if anything. -/
def isQuietLine (line : List Char) : Bool :=
  match line.dropWhile isBlank with
  | [] => true
  | c :: comment => c = '#' && comment.all (!isBreakOrEnd ·)

/-- A text without content, in the order of reading.  A comment goes up to the end of its line. -/
inductive Quiet : List Char → Prop
  | nil : Quiet []
  | blank {c s} : isBlank c = true → Quiet s → Quiet (c :: s)
  | feed {s} : Quiet s → Quiet ('\n' :: s)
  | comment {cs s} : (∀ c ∈ cs, isBreakOrEnd c = false) → (∀ c ∈ s.head?, c = '\n') → Quiet s →
      Quiet ('#' :: (cs ++ s))

theorem isQuietLine_cons_of_blank {c : Char} {line : List Char} (hc : isBlank c = true) :
    isQuietLine (c :: line) = isQuietLine line := by
  simp only [isQuietLine, List.dropWhile_cons_of_pos hc]

theorem isQuietLine_cons_of_not_blank {c : Char} {line : List Char} (hc : ¬isBlank c = true) :
    isQuietLine (c :: line) = true ↔ c = '#' ∧ ∀ d ∈ line, isBreakOrEnd d = false := by
  simp [isQuietLine, List.dropWhile_cons_of_neg hc]

/-- The rest of a text, where the rest of its first line is quiet or belongs to a comment. -/
theorem quiet_of_pieces {s line : List Char} {others : List (List Char)}
    (h : Text.pieces (· = '\n') s = line :: others)
    (hothers : ∀ other ∈ others, isQuietLine other = true) :
    (isQuietLine line = true → Quiet s) ∧
      ((∀ c ∈ line, isBreakOrEnd c = false) →
        ∃ rest, s = line ++ rest ∧ (∀ c ∈ rest.head?, c = '\n') ∧ Quiet rest) := by
  induction s generalizing line others with
  | nil =>
    cases h
    exact ⟨fun _ => .nil, fun _ => ⟨[], rfl, by simp, .nil⟩⟩
  | cons c s ih =>
    obtain ⟨next, rest, hs⟩ := List.exists_cons_of_ne_nil (Text.pieces_ne_nil (· = '\n') s)
    rw [Text.pieces, hs] at h
    by_cases hc : c = '\n'
    · obtain ⟨rfl, rfl⟩ : line = [] ∧ others = next :: rest := by simpa [hc, eq_comm] using h
      have hquiet : Quiet (c :: s) := by
        obtain ⟨hnext, hrest⟩ := List.forall_mem_cons.mp hothers
        rw [hc]
        exact .feed ((ih hs hrest).1 hnext)
      exact ⟨fun _ => hquiet, fun _ => ⟨c :: s, rfl, by simp [hc], hquiet⟩⟩
    · obtain ⟨rfl, rfl⟩ : line = c :: next ∧ others = rest := by simpa [hc, eq_comm] using h
      obtain ⟨hline, hcomment⟩ := ih hs hothers
      constructor
      · intro hquiet
        by_cases hblank : isBlank c = true
        · rw [isQuietLine_cons_of_blank hblank] at hquiet
          exact .blank hblank (hline hquiet)
        · obtain ⟨rfl, hnext⟩ := (isQuietLine_cons_of_not_blank hblank).mp hquiet
          obtain ⟨after, rfl, hfeed, hafter⟩ := hcomment hnext
          exact .comment hnext hfeed hafter
      · intro hnext
        obtain ⟨after, rfl, hfeed, hafter⟩ := hcomment (List.forall_mem_cons.mp hnext).2
        exact ⟨after, rfl, hfeed, hafter⟩

theorem quiet_of_lines {text : List Char}
    (h : ∀ line ∈ Text.pieces (· = '\n') text, isQuietLine line = true) : Quiet text := by
  obtain ⟨line, others, hpieces⟩ :=
    List.exists_cons_of_ne_nil (Text.pieces_ne_nil (· = '\n') text)
  rw [hpieces] at h
  obtain ⟨hline, hothers⟩ := List.forall_mem_cons.mp h
  exact (quiet_of_pieces hpieces hothers).1 hline

/-- A text that ends early is not quiet. -/
theorem Quiet.ne_nul {text : List Char} (h : Quiet text) : ∀ c ∈ text, c ≠ nul := by
  induction h with
  | nil => intro c hc; cases hc
  | blank hblank _ ih =>
    refine List.forall_mem_cons.mpr ⟨?_, ih⟩
    rintro rfl
    cases hblank
  | feed _ ih => exact List.forall_mem_cons.mpr ⟨by decide, ih⟩
  | comment hcs _ _ ih =>
    refine List.forall_mem_cons.mpr ⟨by decide, List.forall_mem_append.mpr ⟨?_, ih⟩⟩
    rintro c hc rfl
    cases hcs nul hc

namespace Scanner

variable {s : Scanner}

/-! ### Skipping to the end -/

/-- Outside all collections, where a key may start but none has. -/
structure Outside (s : Scanner) : Prop where
  indents : s.indents = []
  keyAllowed : s.keyAllowed = true
  keys : ∀ k ∈ s.keys, k.possible = false

theorem Outside.move (h : s.Outside) (c : Cursor) : (s.move c).Outside :=
  ⟨h.indents, h.keyAllowed, h.keys⟩

/-- Without blocks, no tab is in the way. -/
theorem Outside.tabIsIndentation (h : s.Outside) : s.tabIsIndentation = false := by
  simp [Scanner.tabIsIndentation, h.indents]

theorem ofText_outside (text : List Char) : (ofText text).Outside where
  indents := rfl
  keyAllowed := rfl
  keys := by
    intro k hk
    obtain rfl : k = {} := List.mem_singleton.mp hk
    rfl

/-- There is a round left for every character. -/
theorem exists_cons_of_length_le {d : Char} {rest bound : List Char}
    (h : (d :: rest).length ≤ bound.length) :
    ∃ b more, bound = b :: more ∧ rest.length ≤ more.length := by
  cases bound with
  | nil => cases h
  | cons b more => exact ⟨b, more, rfl, Nat.le_of_succ_le_succ h⟩

theorem skipToTokenUpTo_blank (hs : s.Outside) {d b : Char} {rest more : List Char}
    (hrest : s.cursor.rest = d :: rest) (hd : isBlank d = true) :
    skipToTokenUpTo (b :: more) s = skipToTokenUpTo more (s.move (s.cursor.blanks 1)) := by
  simp [skipToTokenUpTo, hs.tabIsIndentation, Cursor.peek_of_cons hrest, hd]

theorem skipToTokenUpTo_feed (hs : s.Outside) {b : Char} {rest more : List Char}
    (hrest : s.cursor.rest = '\n' :: rest) :
    skipToTokenUpTo (b :: more) s = skipToTokenUpTo more (s.move (s.cursor.breakOf 1)) := by
  have hnewline : s.cursor.newline = s.cursor.breakOf 1 := by
    rw [Cursor.newline, hrest]
    rfl
  have hmove : { s with cursor := s.cursor.newline, keyAllowed := s.keyAllowed || !s.inFlow } =
      s.move (s.cursor.breakOf 1) := by
    rw [hnewline, hs.keyAllowed, Bool.true_or, ← hs.keyAllowed]
    rfl
  rw [skipToTokenUpTo, Cursor.peek_of_cons hrest, hs.tabIsIndentation, hmove]
  rfl

theorem skipToTokenUpTo_comment (hs : s.Outside) {b : Char} {cs rest more : List Char}
    (hrest : s.cursor.rest = '#' :: (cs ++ rest)) (hcs : ∀ c ∈ cs, isBreakOrEnd c = false)
    (hfeed : ∀ c ∈ rest.head?, c = '\n') :
    skipToTokenUpTo (b :: more) s =
      skipToTokenUpTo more (s.move (s.cursor.skip (cs.length + 1))) := by
  have hall : ∀ c ∈ '#' :: cs, (!isBreakOrEnd c) = true :=
    List.forall_mem_cons.mpr ⟨rfl, fun c hc => by simp [hcs c hc]⟩
  have htake : s.cursor.rest.takeWhile (!isBreakOrEnd ·) = '#' :: cs := by
    rw [hrest, ← List.cons_append,
      Text.takeWhile_append_of_head _ fun c hc => by rw [hfeed c hc]; rfl,
      List.takeWhile_eq_self_iff.mpr hall]
  have hskip : s.cursor.skipWhile (!isBreakOrEnd ·) = s.cursor.skip (cs.length + 1) := by
    rw [Cursor.skipWhile, htake]
    rfl
  rw [skipToTokenUpTo, Cursor.peek_of_cons hrest, hs.tabIsIndentation, hskip]
  rfl

/-- Each round reads a blank, a line feed or a comment. -/
theorem skipToTokenUpTo_of_quiet {rest : List Char} (h : Quiet rest) {bound : List Char}
    (hs : s.Outside) (hrest : s.cursor.rest = rest) (hbound : rest.length ≤ bound.length) :
    ∃ c, skipToTokenUpTo bound s = .ok (s.move c) ∧ c.rest = [] := by
  induction h generalizing bound s with
  | nil =>
    refine ⟨s.cursor, ?_, hrest⟩
    cases bound with
    | nil => rfl
    | cons b more =>
      rw [skipToTokenUpTo, Cursor.peek_of_nil hrest, hs.tabIsIndentation]
      rfl
  | @blank d rest hd _ ih =>
    obtain ⟨b, more, rfl, hmore⟩ := exists_cons_of_length_le hbound
    rw [skipToTokenUpTo_blank hs hrest hd]
    exact ih (hs.move _) (by simp [move, Cursor.blanks, hrest]) hmore
  | @feed rest _ ih =>
    obtain ⟨b, more, rfl, hmore⟩ := exists_cons_of_length_le hbound
    rw [skipToTokenUpTo_feed hs hrest]
    exact ih (hs.move _) (by simp [move, Cursor.breakOf, hrest]) hmore
  | @comment cs rest hcs hfeed _ ih =>
    obtain ⟨b, more, rfl, hmore⟩ := exists_cons_of_length_le hbound
    rw [skipToTokenUpTo_comment hs hrest hcs hfeed]
    rw [List.length_append] at hmore
    exact ih (hs.move _) (by simp [move, Cursor.skip, Cursor.blanks, hrest])
      (Nat.le_of_add_left_le hmore)

/-! ### The stream -/

theorem Outside.dropStaleKey (h : s.Outside) : s.dropStaleKey = .ok s := by
  have hkey : s.key.possible = false := h.keys s.key (List.mem_cons_self ..)
  simp [Scanner.dropStaleKey, keyIsStale, hkey]

theorem Outside.closeBlocks (h : s.Outside) (column : Int) : s.closeBlocks column = s := by
  unfold Scanner.closeBlocks
  split
  · rfl
  · rw [h.indents]
    simp [leave, ← h.indents]

/-- A quiet text is read to its end before the first step. -/
theorem prepare_of_quiet (hs : s.Outside) (hquiet : Quiet s.cursor.rest) :
    ∃ c, s.prepare = .ok (s.move c) ∧ c.rest = [] := by
  obtain ⟨c, hskip, hc⟩ := skipToTokenUpTo_of_quiet hquiet hs rfl (Nat.le_refl _)
  refine ⟨c.fetch 4, ?_, hc⟩
  rw [prepare, skipToToken, hskip]
  show (do
    let s' ← (s.move c).dropStaleKey
    let s' := s'.closeBlocks s'.column
    .ok (s'.move (s'.cursor.fetch 4))) = _
  rw [(hs.move c).dropStaleKey]
  show Except.ok (((s.move c).closeBlocks (s.move c).column).move _) = _
  rw [(hs.move c).closeBlocks]
  rfl

theorem Outside.awaitsKey (h : s.Outside) : s.awaitsKey = false := by
  simp only [Scanner.awaitsKey, List.any_eq_false]
  intro k hk
  simp [h.keys k hk]

theorem endStream_of_outside (hs : s.Outside) :
    s.endStream = .ok (s.tokens ++ [⟨.streamEnd, s.endMark⟩]) := by
  have hend : (s.move { s.cursor with mark := s.endMark }).Outside := hs.move _
  rw [endStream, if_neg (by simp [hend.awaitsKey]), hend.closeBlocks]
  exact congrArg Except.ok (List.reverse_cons ..)

/-- The bound on the steps does not matter, since none is taken. -/
theorem run_of_quiet (bound : List Char) (hs : s.Outside) (hquiet : Quiet s.cursor.rest) :
    ∃ m, s.run bound = .ok (s.tokens ++ [⟨.streamEnd, m⟩]) := by
  obtain ⟨c, hprepare, hc⟩ := prepare_of_quiet hs hquiet
  have hend := endStream_of_outside (hs.move c)
  refine ⟨(s.move c).endMark, ?_⟩
  cases bound with
  | nil =>
    rw [run, hprepare]
    exact hend
  | cons b more =>
    have hrest : (s.move c).cursor.rest = [] := hc
    rw [run, hprepare]
    show (match (s.move c).cursor.rest with
      | [] => (s.move c).endStream
      | d :: _ => _) = _
    rw [hrest]
    exact hend

end Scanner

/-- The scanner finds no token between the start and the end of the stream. -/
theorem scan_of_quiet {text : List Char} (h : Quiet text) :
    ∃ m, scan text = .ok [⟨.streamStart, {}⟩, ⟨.streamEnd, m⟩] := by
  have hrest : (Scanner.ofText text).cursor.rest = text := by
    show text.takeWhile (· ≠ nul) = text
    exact List.takeWhile_eq_self_iff.mpr fun c hc => decide_eq_true (h.ne_nul c hc)
  have hquiet : Quiet (Scanner.ofText text).cursor.rest := by rwa [hrest]
  exact Scanner.run_of_quiet _ (Scanner.ofText_outside text) hquiet

end Yaml

/-! ### Linting -/

/-- The tokens of a stream without content. -/
def emptyStream (stop : Text.Position) : List Token :=
  [⟨.streamStart, 0, 0⟩, ⟨.streamEnd, stop.line, stop.column⟩]

theorem tokenize_of_quiet {text : List Char} (h : Yaml.Quiet text) :
    tokenize text = .ok (emptyStream (Text.endOf text)) := by
  obtain ⟨m, hscan⟩ := Yaml.scan_of_quiet h
  rw [tokenize, hscan]
  rfl

/-- Where there is no document, no marker is missing, forbidden or badly spaced. -/
theorem findings_emptyStream (config : Config) (stop : Text.Position) :
    config.findings (emptyStream stop) = [] := by
  have hstart : DocumentStart.check config.documentStart
      ⟨none, ⟨.streamStart, 0, 0⟩, some ⟨.streamEnd, stop.line, stop.column⟩, none⟩ = [] := by
    simp [DocumentStart.check, DocumentStart.checkForbidden]
  have hend : DocumentStart.check config.documentStart
      ⟨some ⟨.streamStart, 0, 0⟩, ⟨.streamEnd, stop.line, stop.column⟩, none, none⟩ = [] := by
    simp [DocumentStart.check, DocumentStart.checkForbidden, DocumentStart.checkMissing,
      DocumentStart.checkEmptyLines, DocumentStart.isMarkerOrEnd]
  simp [Config.findings, emptyStream, windows, windowsAfter, hstart, hend]

theorem lint_of_quiet (config : Config) (file : Path) {text : List Char} (h : Yaml.Quiet text) :
    lint config file text = .ok [] := by
  rw [lint, tokenize_of_quiet h]
  split
  · rfl
  · show Except.ok (Diagnostic.sort (attributed file
      (problems config (Suppression.ofText text) (emptyStream (Text.endOf text))))) = _
    rw [problems_eq_unsilenced, findings_emptyStream]
    simp [unsilenced, attributed, Diagnostic.sort]

/-- A text whose lines hold blanks and comments only has no tokens but the start and the end of the
stream, and it is clean, whatever the rules ask for. -/
theorem lint_of_quiet_lines (text : List Char)
    (h : ∀ line ∈ Text.pieces (· = '\n') text, Yaml.isQuietLine line = true) :
    tokenize text =
      .ok [⟨.streamStart, 0, 0⟩, ⟨.streamEnd, (Text.endOf text).line, (Text.endOf text).column⟩] ∧
    ∀ config file, lint config file text = .ok [] := by
  have hquiet := Yaml.quiet_of_lines h
  exact ⟨tokenize_of_quiet hquiet, fun config file => lint_of_quiet config file hquiet⟩

/-- A comment, a tab on a line of its own and no line feed at the end. -/
theorem lint_of_quiet_lines_blanks :
    (∀ line ∈ Text.pieces (· = '\n') "  # --- a: %\n\t\n ".toList, Yaml.isQuietLine line = true) ∧
    tokenize "  # --- a: %\n\t\n ".toList = .ok [⟨.streamStart, 0, 0⟩, ⟨.streamEnd, 2, 1⟩] ∧
    lint ⟨RuleSet.all, ⟨true, 5, 0⟩⟩ ⟨"a.yml"⟩ "  # --- a: %\n\t\n ".toList = .ok [] := by
  have hlines : ∀ line ∈ Text.pieces (· = '\n') "  # --- a: %\n\t\n ".toList,
      Yaml.isQuietLine line = true := by decide +kernel
  obtain ⟨htokens, hclean⟩ := lint_of_quiet_lines _ hlines
  exact ⟨hlines, htokens, hclean _ _⟩

end DocMark
