import Mathlib.Data.List.TakeWhile
import DocMark.Proofs.Positions
import DocMark.Report.Excerpt

/-!
# From positions to bytes

Tokens have positions that are counted from the start of the text (`positionAt`), while an excerpt
is cut out of the text by bytes (`byteOffset`, `markedSpan`).  The two ways of counting know nothing
of each other: one counts line feeds and characters up to an offset, the other one splits the text
into lines and measures what precedes the place.  They agree wherever the line has characters to
point at; an offset among the line breaks at the end of a line means the end of the line before
them.

`PointsTo text line column n` says what a place means in the text, in characters: its bytes are
those of the first `n` characters, and what is marked there is the character that follows, or
nothing where a line or the text ends.  So no place is cut in the midst of a character or beyond the
text.

Main statements:

* `byteOffset_append` — bytes before a place, by what stands above its line and on it;
* `places_point_into_text` — what the position of an offset means, and that every place means
  something.
-/

namespace DocMark

namespace Text

variable {s above t : List Char}

/-! ### Whole lines -/

/-- The text ends where a line starts. -/
def EndsLine (s : List Char) : Prop := s = [] ∨ s.getLast? = some '\n'

theorem EndsLine.of_cons {c : Char} (h : EndsLine (c :: s)) : EndsLine s := by
  cases s with
  | nil => exact .inl rfl
  | cons d s =>
    rcases h with h | h
    · cases h
    · exact .inr (by simpa using h)

theorem EndsLine.ne_nil_of_cons {c : Char} (h : EndsLine (c :: s)) (hc : c ≠ '\n') : s ≠ [] := by
  rintro rfl
  rcases h with h | h
  · cases h
  · exact hc (by simpa using h)

theorem linesWithEnds_ne_nil (h : s ≠ []) : linesWithEnds '\n' s ≠ [] := by
  intro hlines
  apply h
  rw [← flatten_linesWithEnds '\n' s, hlines]
  rfl

theorem linesWithEnds_append (h : EndsLine above) (t : List Char) :
    linesWithEnds '\n' (above ++ t) = linesWithEnds '\n' above ++ linesWithEnds '\n' t := by
  induction above with
  | nil => rfl
  | cons c cs ih =>
    have ih := ih h.of_cons
    by_cases hc : c = '\n'
    · simp [linesWithEnds, hc, ih]
    · obtain ⟨l, ls, hlines⟩ :=
        List.exists_cons_of_ne_nil (linesWithEnds_ne_nil (h.ne_nil_of_cons hc))
      simp [linesWithEnds, hc, ih, hlines]

theorem length_linesWithEnds (h : EndsLine s) : (linesWithEnds '\n' s).length = s.count '\n' := by
  induction s with
  | nil => rfl
  | cons c cs ih =>
    have ih := ih h.of_cons
    by_cases hc : c = '\n'
    · simp [linesWithEnds, hc, ih]
    · obtain ⟨l, ls, hlines⟩ :=
        List.exists_cons_of_ne_nil (linesWithEnds_ne_nil (h.ne_nil_of_cons hc))
      rw [hlines] at ih
      simpa [linesWithEnds, hc, hlines] using ih

/-- The first line of a text, with its line feed if it has one. -/
theorem head?_linesWithEnds (h : t ≠ []) :
    (linesWithEnds '\n' t).head? =
      some (t.takeWhile (· ≠ '\n') ++ (t.dropWhile (· ≠ '\n')).take 1) := by
  induction t with
  | nil => exact absurd rfl h
  | cons c cs ih =>
    by_cases hc : c = '\n'
    · simp [linesWithEnds, hc]
    · cases cs with
      | nil => simp [linesWithEnds, hc]
      | cons d ds =>
        have ih := ih (List.cons_ne_nil d ds)
        obtain ⟨l, ls, hlines⟩ :=
          List.exists_cons_of_ne_nil (linesWithEnds_ne_nil (List.cons_ne_nil d ds))
        rw [hlines, List.head?_cons, Option.some.injEq] at ih
        rw [linesWithEnds, if_neg hc, hlines]
        simp [hc, ih]

/-! ### Line breaks at the end of a line -/

theorem dropBreaks_begins (line : List Char) : dropBreaks line <+: line := by
  have hsuffix := List.dropWhile_suffix isBreak (l := line.reverse)
  have := List.reverse_prefix.mpr hsuffix
  rwa [List.reverse_reverse] at this

theorem dropBreaks_append {breaks : List Char} (h : ∀ c ∈ breaks, isBreak c = true)
    (line : List Char) : dropBreaks (line ++ breaks) = dropBreaks line := by
  have hbreaks : breaks.reverse.dropWhile isBreak = [] :=
    List.dropWhile_eq_nil_iff.mpr fun c hc => h c (List.mem_reverse.mp hc)
  simp [dropBreaks, List.dropWhile_append, hbreaks]

theorem eq_newline_of_head? {c : Char} (h : (t.dropWhile (· ≠ '\n')).head? = some c) :
    c = '\n' := by
  have hstop := List.head?_dropWhile_not (· ≠ '\n') t
  rw [h] at hstop
  simpa using hstop

/-- The line feed of the first line is one of the breaks at its end. -/
theorem isBreak_of_mem_take_dropWhile (t : List Char) :
    ∀ c ∈ (t.dropWhile (· ≠ '\n')).take 1, isBreak c = true := by
  intro c hc
  rw [List.take_one, Option.mem_toList] at hc
  simp [isBreak, eq_newline_of_head? hc]

/-! ### Bytes before a place -/

/-- Bytes before a place: those of the lines above, and those on the line before its column. -/
theorem byteOffset_append (h : EndsLine above) (t : List Char) (column : Nat) :
    byteOffset (above ++ t) (above.count '\n' + 1) column =
      byteLength above + byteLength ((dropBreaks (t.takeWhile (· ≠ '\n'))).take (column - 1)) := by
  rw [byteOffset, linesWithEnds_append h, ← length_linesWithEnds h,
    List.getElem?_append_right (Nat.le_refl _), Nat.sub_self, ← List.head?_eq_getElem?,
    List.take_left, flatten_linesWithEnds]
  by_cases ht : t = []
  · subst ht
    simp [linesWithEnds, dropBreaks]
  · rw [head?_linesWithEnds ht]
    simp only
    rw [dropBreaks_append (isBreak_of_mem_take_dropWhile t)]

/-- The offset at which the line around an offset starts. -/
def lineStart (s : List Char) (o : Nat) : Nat := o - (positionAt s o).column

/-- The line around an offset, without its line feed. -/
def lineAround (s : List Char) (o : Nat) : List Char :=
  (s.drop (lineStart s o)).takeWhile (· ≠ '\n')

/-- The offset at which the line around an offset ends, before the line breaks at its end. -/
def contentEnd (s : List Char) (o : Nat) : Nat :=
  lineStart s o + (dropBreaks (lineAround s o)).length

/-- An offset splits the text where its line starts. -/
theorem exists_split_at_line (s : List Char) {o : Nat} (ho : o ≤ s.length) :
    ∃ above t, above ++ t = s ∧ EndsLine above ∧ above.length = lineStart s o ∧
      (positionAt s o).line = above.count '\n' ∧ lineStart s o + (positionAt s o).column = o := by
  obtain ⟨part, hpart⟩ : ∃ part, part = (s.take o).reverse.takeWhile (· ≠ '\n') := ⟨_, rfl⟩
  obtain ⟨above, habove⟩ : ∃ above, above = (s.take o).reverse.dropWhile (· ≠ '\n') := ⟨_, rfl⟩
  have hsplit : above.reverse ++ part.reverse = s.take o := by
    rw [← List.reverse_append, hpart, habove, List.takeWhile_append_dropWhile,
      List.reverse_reverse]
  have hcolumn : (positionAt s o).column = part.length := by rw [hpart]; rfl
  have hlength : above.length + part.length = o := by
    have := congrArg List.length hsplit
    simpa [Nat.min_eq_left ho] using this
  have hstart : above.length = lineStart s o := by
    rw [lineStart, hcolumn]
    omega
  have hfeed : part.count '\n' = 0 := by
    rw [List.count_eq_zero, hpart]
    intro hmem
    simpa using List.mem_takeWhile_imp hmem
  refine ⟨above.reverse, part.reverse ++ s.drop o, ?_, ?_, ?_, ?_, ?_⟩
  · rw [← List.append_assoc, hsplit, List.take_append_drop]
  · cases h : above with
    | nil => exact .inl rfl
    | cons c cs =>
      right
      rw [habove] at h
      rw [List.getLast?_reverse, List.head?_cons, Option.some.injEq]
      exact eq_newline_of_head? (by rw [h]; rfl)
  · rw [List.length_reverse, hstart]
  · rw [positionAt, line_endOf, ← hsplit, List.count_append, List.count_reverse,
      List.count_reverse, hfeed, Nat.add_zero]
  · rw [← hstart, hcolumn, hlength]

/-- Offsets and positions agree, up to the line breaks at the end of a line. -/
theorem byteOffset_positionAt {s : List Char} {o : Nat} (ho : o ≤ s.length) :
    byteOffset s ((positionAt s o).line + 1) ((positionAt s o).column + 1) =
      byteLength (s.take (min o (contentEnd s o))) := by
  obtain ⟨above, t, rfl, hends, hlength, hline, hcolumn⟩ := exists_split_at_line s ho
  obtain ⟨column, hc⟩ : ∃ column, column = (positionAt (above ++ t) o).column := ⟨_, rfl⟩
  obtain ⟨content, hcontent⟩ : ∃ content, content = dropBreaks (t.takeWhile (· ≠ '\n')) := ⟨_, rfl⟩
  have haround : dropBreaks (lineAround (above ++ t) o) = content := by
    rw [lineAround, ← hlength, List.drop_left, hcontent]
  have hbegins : content <+: t :=
    hcontent ▸ (dropBreaks_begins _).trans (List.takeWhile_prefix _)
  -- What precedes the place are the lines above and a beginning of its line.
  have htake : (above ++ t).take (min o (contentEnd (above ++ t) o)) =
      above ++ content.take column := by
    have hmin : min o (contentEnd (above ++ t) o) = above.length + min column content.length := by
      rw [contentEnd, haround, ← Nat.add_min_add_left, hlength, hc, hcolumn]
    rw [hmin, List.take_length_add_append, ← List.take_take,
      ← List.prefix_iff_eq_take.mp hbegins]
  rw [htake, byteLength_append, hline, ← hc, byteOffset_append hends, Nat.add_sub_cancel, hcontent]

/-- A line and those above it are a beginning of the text. -/
theorem flatten_take_append_begins {n : Nat} {l : List Char} (hl : (linesWithEnds '\n' s)[n]? = some l) :
    ((linesWithEnds '\n' s).take n).flatten ++ l <+: s := by
  refine ⟨((linesWithEnds '\n' s).drop (n + 1)).flatten, ?_⟩
  calc ((linesWithEnds '\n' s).take n).flatten ++ l ++ ((linesWithEnds '\n' s).drop (n + 1)).flatten
      = ((linesWithEnds '\n' s).take (n + 1) ++ (linesWithEnds '\n' s).drop (n + 1)).flatten := by
        simp [List.take_add_one, hl]
    _ = s := by rw [List.take_append_drop, flatten_linesWithEnds]

/-- Every place lies behind a beginning of the text. -/
theorem exists_byteOffset_eq (s : List Char) (line column : Nat) :
    ∃ n ≤ s.length, byteOffset s line column = byteLength (s.take n) := by
  have hend : ∃ n ≤ s.length, byteLength s = byteLength (s.take n) :=
    ⟨s.length, Nat.le_refl _, by rw [List.take_length]⟩
  unfold byteOffset
  split
  · exact hend
  · next n =>
    split
    · exact hend
    · next l hl =>
      have hpart : (dropBreaks l).take (column - 1) <+: l :=
        (List.take_prefix _ _).trans (dropBreaks_begins l)
      have hbegins := ((List.prefix_append_right_inj _).mpr hpart).trans
        (flatten_take_append_begins hl)
      refine ⟨_, hbegins.length_le, ?_⟩
      rw [← List.prefix_iff_eq_take.mp hbegins, byteLength_append]

end Text

/-! ### What is marked -/

/-- The mark that starts behind `before`: it covers the character that comes next, or nothing where
a line or the text ends. -/
inductive Marks (before : List Char) : List Char → ByteSpan → Prop
  | atEnd {after} : (∀ c ∈ after.head?, c = '\n' ∨ c = '\r') →
      Marks before after ⟨Text.byteLength before, Text.byteLength before⟩
  | character {c rest} : c ≠ '\n' → c ≠ '\r' →
      Marks before (c :: rest) ⟨Text.byteLength before, Text.byteLength (before ++ [c])⟩

theorem marks_markedSpan {text before after : List Char} {line column : Nat}
    (htext : before ++ after = text)
    (hoffset : Text.byteOffset text line column = Text.byteLength before) :
    Marks before after (markedSpan text line column) := by
  subst htext
  simp only [markedSpan, hoffset, Text.takeBytes_byteLength, List.drop_left]
  cases after with
  | nil => exact .atEnd nofun
  | cons c rest =>
    simp only
    split
    · next hbreak =>
      refine .atEnd fun d hd => ?_
      obtain rfl : c = d := by simpa using hd
      simpa [Text.isBreak] using hbreak
    · next hbreak =>
      have hc : c ≠ '\n' ∧ c ≠ '\r' := by simpa [Text.isBreak] using hbreak
      have hspan : Marks before (c :: rest) _ := .character hc.1 hc.2
      simpa using hspan

/-- The place with this line and column, counted from one, means the offset `n` of the text: its
bytes are those of the first `n` characters, and the mark for it starts behind them. -/
structure PointsTo (text : List Char) (line column n : Nat) : Prop where
  le : n ≤ text.length
  byteOffset_eq : Text.byteOffset text line column = Text.byteLength (text.take n)
  marks : Marks (text.take n) (text.drop n) (markedSpan text line column)

theorem pointsTo_of_byteOffset_eq {text : List Char} {line column n : Nat} (hn : n ≤ text.length)
    (h : Text.byteOffset text line column = Text.byteLength (text.take n)) :
    PointsTo text line column n :=
  ⟨hn, h, marks_markedSpan (List.take_append_drop n text) h⟩

/-- The position of an offset, as the table of lines gives it, means this offset, or the end of its
line before the line breaks.  Every other line and column means some offset, too, so nothing is cut
in the midst of a character or beyond the text, and a mark covers one character or none. -/
theorem places_point_into_text (text : List Char) :
    (∀ o ≤ text.length, ∃ p, Text.lookUp (Text.lineStarts text) o = some p ∧
      PointsTo text (p.line + 1) (p.column + 1) (min o (Text.contentEnd text o))) ∧
    ∀ line column, ∃ n, PointsTo text line column n := by
  constructor
  · intro o ho
    refine ⟨_, Text.lookUp_lineStarts ho, ?_⟩
    exact pointsTo_of_byteOffset_eq (Nat.le_trans (Nat.min_le_left _ _) ho)
      (Text.byteOffset_positionAt ho)
  · intro line column
    obtain ⟨n, hn, h⟩ := Text.exists_byteOffset_eq text line column
    exact ⟨n, pointsTo_of_byteOffset_eq hn h⟩

/-- The line feed of a line that ends in both breaks means the end of the characters before them,
two bytes into the text. -/
theorem places_point_into_text_both_breaks :
    let text := "é\r\nb".toList
    2 ≤ text.length ∧ Text.lookUp (Text.lineStarts text) 2 = some ⟨0, 2⟩ ∧ PointsTo text 1 3 1 ∧
      Text.byteOffset text 1 3 = 2 := by
  intro text
  have hlength : 2 ≤ text.length := by decide
  have hfound : Text.lookUp (Text.lineStarts text) 2 = some ⟨0, 2⟩ := by decide
  obtain ⟨p, hp, hpoints⟩ := (places_point_into_text text).1 2 hlength
  obtain rfl : (⟨0, 2⟩ : Text.Position) = p := Option.some.inj (hfound.symm.trans hp)
  rw [show min 2 (Text.contentEnd text 2) = 1 by decide] at hpoints
  exact ⟨hlength, hfound, hpoints, hpoints.byteOffset_eq⟩

end DocMark
