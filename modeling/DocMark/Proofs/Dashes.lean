import Mathlib.Data.List.Forall2
import DocMark.Proofs.ReadingTokens
import DocMark.Token.Stream

/-!
# The dashes of entries

An entry of a block sequence is opened by a dash, and the scanner comes to it at the start of a
step.  It then reads on through the blanks and the comment that follow on the line
(`lineGap`), and what it marks is the place behind them.  `EntryAt text m dash` says that of a mark
and of the offset of its dash.

Main statements:

* `Cursor.ReadsTo.behind` — what the mark of a cursor has to do with the text;
* `lineGap_skipBlanks` — the scanner reads just the blanks and the comment;
* `EntryAt.of_skipBlanks` — a dash that a step starts with has its entry.
-/

namespace DocMark.Yaml

/-! ### Marks in a text -/

/-- The mark lies behind this beginning of the text. -/
structure Mark.Behind (text : List Char) (m : Mark) (read : List Char) : Prop where
  beginning : read <+: text
  length_le : read.length ≤ m.index
  le_byteLength : m.index ≤ Text.byteLength read
  line_eq : Text.returnsPaired text = true → m.line = read.count '\n' + 1
  column_eq : read = [] ∨ read.getLast? = some '\n' → m.column = 0
  position_le : (Text.endOf read).Le m.position

theorem returnsPaired_takeWhile_nul {text : List Char} (h : Text.returnsPaired text = true) :
    Text.returnsPaired (text.takeWhile (· ≠ nul)) = true := by
  induction text with
  | nil => rfl
  | cons c cs ih =>
    rw [Text.returnsPaired, Bool.and_eq_true] at h
    rw [List.takeWhile_cons]
    split
    · rw [Text.returnsPaired, Bool.and_eq_true]
      refine ⟨?_, ih h.2⟩
      rw [Bool.or_eq_true] at h ⊢
      refine h.1.imp id fun hhead => ?_
      cases cs with
      | nil => exact hhead
      | cons d ds =>
        have hd : d = '\n' := by simpa using hhead
        subst hd
        rfl
    · rfl

namespace Cursor

/-- The number of characters that the cursor has come over since the start of the text. -/
def offset (text : List Char) (c : Cursor) : Nat := (ofText text).rest.length - c.rest.length

variable {text : List Char} {c c' : Cursor}

theorem Reads.length_eq_offset {read : List Char} (h : (ofText text).Reads read c) :
    read.length = c.offset text := by
  rw [offset, h.rest, List.length_append, Nat.add_sub_cancel]

theorem ReadsTo.offset_le (text : List Char) (h : c.ReadsTo c') :
    c.offset text ≤ c'.offset text := by
  obtain ⟨read, hread⟩ := h
  unfold offset
  rw [hread.rest, List.length_append]
  omega

/-- What is still to come: what the cursor reads, and what the first NUL hides from it. -/
theorem ReadsTo.drop_eq (h : (ofText text).ReadsTo c) :
    ∃ hidden, text.drop (c.offset text) = c.rest ++ hidden ∧ ∀ d ∈ hidden.head?, d = nul := by
  obtain ⟨read, hread⟩ := h
  have hrest : text.takeWhile (· ≠ nul) = read ++ c.rest := hread.rest
  refine ⟨text.dropWhile (· ≠ nul), ?_, fun d hd => ?_⟩
  · rw [← hread.length_eq_offset]
    conv_lhs => rw [← List.takeWhile_append_dropWhile (p := (· ≠ nul)) (l := text)]
    rw [hrest, List.append_assoc, List.drop_left]
  · have hstop := List.head?_dropWhile_not (· ≠ nul) text
    rw [Option.mem_def.mp hd] at hstop
    simpa using hstop

/-- Reading on moves the offset by what is read. -/
theorem ReadsTo.offset_eq {read : List Char} (h : (ofText text).ReadsTo c)
    (hrest : c.rest = read ++ c'.rest) : c'.offset text = c.offset text + read.length := by
  obtain ⟨before, hbefore⟩ := h
  unfold offset
  rw [hbefore.rest, hrest, List.length_append, List.length_append]
  omega

/-- What the cursor sees is what the text has there; at the end of what it reads, a NUL. -/
theorem ReadsTo.peek_eq {k : Nat} {d : Char} (h : (ofText text).ReadsTo c)
    (hk : k ≤ c.rest.length) (hd : text[c.offset text + k]? = some d) : c.peek k = d := by
  obtain ⟨hidden, hdrop, hhidden⟩ := h.drop_eq
  rw [← List.getElem?_drop, hdrop] at hd
  rcases Nat.lt_or_eq_of_le hk with hlt | rfl
  · rw [List.getElem?_append_left hlt] at hd
    rw [peek, List.getD_eq_getElem?_getD, hd]
    rfl
  · rw [List.getElem?_append_right (Nat.le_refl _), Nat.sub_self, ← List.head?_eq_getElem?] at hd
    rw [hhidden d hd, peek, List.getD_eq_default _ _ (Nat.le_refl _)]

theorem exists_rest_of_peek {d : Char} (h : c.peek = d) (hd : d ≠ nul) :
    ∃ rest, c.rest = d :: rest := by
  cases hrest : c.rest with
  | nil => exact absurd (h.symm.trans (peek_of_nil hrest)) hd
  | cons e rest => exact ⟨rest, by rw [← h, peek_of_cons hrest]⟩

/-- The mark of a cursor that has come from the start of a text. -/
theorem ReadsTo.behind (h : (ofText text).ReadsTo c) :
    c.mark.Behind text (text.take (c.offset text)) := by
  obtain ⟨read, hread⟩ := h
  have hrest : text.takeWhile (· ≠ nul) = read ++ c.rest := hread.rest
  have hbeginning : read <+: text :=
    (List.prefix_append read c.rest).trans (hrest ▸ List.takeWhile_prefix _)
  rw [← hread.length_eq_offset, ← List.prefix_iff_eq_take.mp hbeginning]
  refine ⟨hbeginning, ?_, ?_, ?_, ?_, ?_⟩
  · have := hread.length_le
    exact Nat.le_trans (Nat.le_add_left _ _) this
  · have := hread.le_byteLength
    rwa [show (ofText text).index = 0 from rfl, Nat.zero_add] at this
  · intro hpaired
    have hline := hread.line_eq (returnsPaired_takeWhile_nul hpaired)
    rw [Nat.add_comm]
    exact hline
  · intro hends
    exact hread.column_eq (hends.imp (fun hnil => ⟨rfl, hnil⟩) id)
  · -- The cursor counts lines from one.
    have hdown := hread.position_le (Text.endOf []).down (.refl _)
    rw [← Text.Position.down_foldl_after, ← Text.endOf_append, List.nil_append] at hdown
    unfold Text.Position.Le Text.Position.down reached at hdown
    show (Text.endOf read).line < c.line - 1 ∨
      (Text.endOf read).line = c.line - 1 ∧ (Text.endOf read).column ≤ c.column
    dsimp only at hdown
    omega

end Cursor

/-! ### What follows on a line -/

/-- The comment that a text begins with, if it begins with one. -/
def comment (s : List Char) : List Char :=
  if s.head? = some '#' then s.takeWhile (!isBreakOrEnd ·) else []

/-- The blanks that a text begins with, and the comment after them. -/
def lineGap (s : List Char) : List Char := s.takeWhile isBlank ++ comment (s.dropWhile isBlank)

/-- A comment that would begin behind the end of the text is none. -/
theorem comment_append (s : List Char) {hidden : List Char} (h : ∀ d ∈ hidden.head?, d = nul) :
    comment (s ++ hidden) = comment s := by
  unfold comment
  rw [Text.takeWhile_append_of_head s fun d hd => by rw [h d hd]; rfl]
  cases s with
  | nil =>
    have hnone : hidden.head? ≠ some '#' := fun he => absurd (h '#' he) (by decide)
    rw [List.nil_append, if_neg hnone]
    rfl
  | cons c cs => rfl

theorem lineGap_append (s : List Char) {hidden : List Char} (h : ∀ d ∈ hidden.head?, d = nul) :
    lineGap (s ++ hidden) = lineGap s := by
  have hblanks := Text.takeWhile_append_of_head (p := isBlank) s fun d hd => by rw [h d hd]; rfl
  have hafter : (s ++ hidden).dropWhile isBlank = s.dropWhile isBlank ++ hidden := by
    have hsplit := List.takeWhile_append_dropWhile (p := isBlank) (l := s ++ hidden)
    rw [hblanks] at hsplit
    conv_rhs at hsplit => rw [← List.takeWhile_append_dropWhile (p := isBlank) (l := s)]
    rw [List.append_assoc] at hsplit
    exact List.append_cancel_left hsplit
  rw [lineGap, hblanks, hafter, comment_append _ h, lineGap]

theorem comment_begins (s : List Char) : comment s <+: s := by
  unfold comment
  split
  · exact List.takeWhile_prefix _
  · exact List.nil_prefix

theorem lineGap_begins (s : List Char) : lineGap s <+: s := by
  obtain ⟨after, hafter⟩ := comment_begins (s.dropWhile isBlank)
  refine ⟨after, ?_⟩
  rw [lineGap, List.append_assoc, hafter, List.takeWhile_append_dropWhile]

theorem newline_not_mem_lineGap (s : List Char) : '\n' ∉ lineGap s := by
  intro h
  rcases List.mem_append.mp h with h | h
  · exact absurd (List.all_eq_true.mp List.all_takeWhile _ h) (by decide)
  · unfold comment at h
    split at h
    · exact absurd (List.all_eq_true.mp List.all_takeWhile _ h) (by decide)
    · cases h

theorem drop_length_takeWhile (p : Char → Bool) (s : List Char) :
    s.drop (s.takeWhile p).length = s.dropWhile p :=
  calc s.drop (s.takeWhile p).length
    _ = (s.takeWhile p ++ s.dropWhile p).drop (s.takeWhile p).length := by
      rw [List.takeWhile_append_dropWhile]
    _ = s.dropWhile p := List.drop_left

theorem Cursor.rest_skipWhile (c : Cursor) (p : Char → Bool) :
    (c.skipWhile p).rest = c.rest.dropWhile p := by
  rw [← drop_length_takeWhile]
  unfold skipWhile
  split
  · next hzero => rw [hzero, List.drop_zero]
  · rfl

/-- Just the blanks and the comment are read. -/
theorem Cursor.lineGap_skipBlanks (c : Cursor) :
    Ensures c.skipBlanks fun r => c.rest = lineGap c.rest ++ r.2.rest := by
  have hblanks : (c.blanks (c.rest.takeWhile isBlank).length).rest = c.rest.dropWhile isBlank :=
    drop_length_takeWhile ..
  have hpeek : (c.blanks (c.rest.takeWhile isBlank).length).peek = '#' ↔
      (c.rest.dropWhile isBlank).head? = some '#' := by
    rw [peek, hblanks]
    cases c.rest.dropWhile isBlank with
    | nil => decide
    | cons d ds => simp
  simp only [skipBlanks]
  split
  · next hmark =>
    split
    · exact .error _
    · refine .ok ?_
      rw [rest_skipWhile, hblanks, lineGap, comment, if_pos (hpeek.mp hmark), List.append_assoc,
        List.takeWhile_append_dropWhile, List.takeWhile_append_dropWhile]
  · next hmark =>
    refine .ok ?_
    rw [hblanks, lineGap, comment, if_neg (mt hpeek.mpr hmark), List.append_nil,
      List.takeWhile_append_dropWhile]

/-! ### Entries -/

namespace Scanner

/-- The scanner is about to take a step in the course of its run over the text. -/
inductive Stands (text : List Char) : Scanner → Prop
  | first {s : Scanner} (h : (ofText text).prepare = .ok s) : Stands text s
  | next {s s' s'' t : Scanner} {d : Char} {ds : List Char} (h : Stands text s)
      (hrest : s.cursor.rest = d :: ds) (hstep : s.step d = .ok s') (hout : s'.handOut = .ok s'')
      (hprepare : s''.prepare = .ok t) : Stands text t

end Scanner

/-- A step of the scanner starts at this offset of the text. -/
def StepAt (text : List Char) (offset : Nat) : Prop :=
  ∃ s : Scanner, s.Stands text ∧ s.cursor.offset text = offset

/-- The offset behind the blanks and the comment that follow a dash. -/
def dashEnd (text : List Char) (dash : Nat) : Nat :=
  dash + 1 + (lineGap (text.drop (dash + 1))).length

/-- The mark is that of an entry, and the offset that of its dash. -/
structure EntryAt (text : List Char) (m : Mark) (dash : Nat) : Prop where
  isDash : text[dash]? = some '-'
  /-- White space, a NUL or nothing follows. -/
  separated : ∀ d, text[dash + 1]? = some d → isSeparator d = true
  /-- A step starts here, so this is no part of a comment. -/
  stepAt : StepAt text dash
  behind : m.Behind text (text.take (dashEnd text dash))

section Dash

variable {text : List Char} {dash : Nat}

theorem drop_of_isDash (h : text[dash]? = some '-') :
    text.drop dash = '-' :: text.drop (dash + 1) := by
  obtain ⟨hlt, hget⟩ := List.getElem?_eq_some_iff.mp h
  rw [List.drop_eq_getElem_cons hlt, hget]

theorem take_dashEnd (h : text[dash]? = some '-') :
    text.take (dashEnd text dash) = text.take dash ++ '-' :: lineGap (text.drop (dash + 1)) := by
  have hgap := List.prefix_iff_eq_take.mp (lineGap_begins (text.drop (dash + 1)))
  rw [dashEnd, Nat.add_assoc, List.take_add, drop_of_isDash h, Nat.add_comm 1, List.take_succ_cons,
    ← hgap]

theorem dashEnd_le (h : text[dash]? = some '-') : dashEnd text dash ≤ text.length := by
  have hlength := congrArg List.length (drop_of_isDash h)
  have hgap := (lineGap_begins (text.drop (dash + 1))).length_le
  rw [List.length_drop, List.length_cons, List.length_drop] at hlength
  rw [List.length_drop] at hgap
  unfold dashEnd
  omega

end Dash

namespace EntryAt

variable {text : List Char} {m : Mark} {dash : Nat} {c c' : Cursor}

/-- A dash that a step starts with has its entry, once the scanner has read on behind it. -/
theorem of_skipBlanks (h : (Cursor.ofText text).ReadsTo c) (hstep : StepAt text (c.offset text))
    (hdash : c.peek = '-') (hsep : isSeparator (c.peek 1) = true) (hc : (c.skip 1).ReadsTo c')
    (hgap : (c.skip 1).rest = lineGap (c.skip 1).rest ++ c'.rest) :
    EntryAt text c'.mark (c.offset text) ∧ c'.offset text = dashEnd text (c.offset text) := by
  obtain ⟨rest, hrest⟩ := Cursor.exists_rest_of_peek hdash (by decide)
  have hskip : (c.skip 1).rest = rest := by
    show c.rest.drop 1 = rest
    rw [hrest]
    rfl
  rw [hskip] at hgap
  obtain ⟨hidden, hdrop, hhidden⟩ := h.drop_eq
  rw [hrest, List.cons_append] at hdrop
  have hget : text[c.offset text]? = some '-' := by
    have hfirst := congrArg (·[0]?) hdrop
    simpa using hfirst
  have hafter : text.drop (c.offset text + 1) = rest ++ hidden := by
    rw [← List.drop_drop, hdrop]
    rfl
  have hoffset : c'.offset text = dashEnd text (c.offset text) := by
    have hread : c.rest = ('-' :: lineGap rest) ++ c'.rest := by
      rw [hrest, List.cons_append, ← hgap]
    rw [h.offset_eq hread, dashEnd, hafter, lineGap_append rest hhidden, List.length_cons]
    omega
  have hahead : c.Ahead 1 := Cursor.ahead_one (by rw [hdash]; rfl)
  have hbehind := ((h.trans (Cursor.skip_reads hahead)).trans hc).behind
  rw [hoffset] at hbehind
  have hnext : ∀ d, text[c.offset text + 1]? = some d → isSeparator d = true := fun d hd => by
    have hlength : 1 ≤ c.rest.length := by
      rw [hrest]
      exact Nat.succ_pos _
    rw [← h.peek_eq hlength hd]
    exact hsep
  exact ⟨⟨hget, hnext, hstep, hbehind⟩, hoffset⟩

end EntryAt

/-! ### The entries of a queue -/

/-- The entries among some tokens. -/
def entriesOf (tokens : List Scanned) : List Scanned := tokens.filter (·.kind = .blockEntry)

/-- Each entry of a queue, the last token first, has a dash of its own, and all that belongs to the
dash lies before that of the next entry and before the offset `stop`. -/
def EntriesUpTo (text : List Char) (stop : Nat) (found : List Scanned) : Prop :=
  ∃ dashes : List Nat, List.Forall₂ (fun t => EntryAt text t.mark) (entriesOf found) dashes ∧
    dashes.Pairwise (fun later earlier => dashEnd text earlier ≤ later) ∧
    ∀ d ∈ dashes, dashEnd text d ≤ stop

section Queue

variable {text : List Char} {stop stop' : Nat} {found found' : List Scanned} {t : Scanned}

theorem entriesOf_cons_of_ne (h : t.kind ≠ .blockEntry) (found : List Scanned) :
    entriesOf (t :: found) = entriesOf found :=
  List.filter_cons_of_neg (by simpa using h)

theorem entriesOf_cons_of_eq (h : t.kind = .blockEntry) (found : List Scanned) :
    entriesOf (t :: found) = t :: entriesOf found :=
  List.filter_cons_of_pos (by simpa using h)

theorem entriesOf_append (found found' : List Scanned) :
    entriesOf (found ++ found') = entriesOf found ++ entriesOf found' :=
  List.filter_append ..

theorem entriesOf_concat_of_ne (h : t.kind ≠ .blockEntry) (found : List Scanned) :
    entriesOf (found ++ [t]) = entriesOf found := by
  have hlast : entriesOf [t] = [] := entriesOf_cons_of_ne h []
  rw [entriesOf_append, hlast, List.append_nil]

namespace EntriesUpTo

theorem nil (text : List Char) (stop : Nat) : EntriesUpTo text stop [] := ⟨[], .nil, .nil, nofun⟩

theorem mono (h : EntriesUpTo text stop found) (hle : stop ≤ stop') :
    EntriesUpTo text stop' found := by
  obtain ⟨dashes, hentries, hsorted, hstop⟩ := h
  exact ⟨dashes, hentries, hsorted, fun d hd => Nat.le_trans (hstop d hd) hle⟩

/-- Tokens that are no entries do not matter. -/
theorem congr (h : EntriesUpTo text stop found) (heq : entriesOf found' = entriesOf found) :
    EntriesUpTo text stop found' := by
  unfold EntriesUpTo
  rw [heq]
  exact h

/-- One more entry, whose dash lies behind all that belongs to the others. -/
theorem cons {dash : Nat} (h : EntriesUpTo text dash found) (hkind : t.kind = .blockEntry)
    (ht : EntryAt text t.mark dash) : EntriesUpTo text (dashEnd text dash) (t :: found) := by
  obtain ⟨dashes, hentries, hsorted, hstop⟩ := h
  have hdash : dash ≤ dashEnd text dash := by unfold dashEnd; omega
  refine ⟨dash :: dashes, ?_, List.pairwise_cons.mpr ⟨hstop, hsorted⟩, ?_⟩
  · rw [entriesOf_cons_of_eq hkind]
    exact .cons ht hentries
  · refine List.forall_mem_cons.mpr ⟨Nat.le_refl _, fun d hd => ?_⟩
    exact Nat.le_trans (hstop d hd) hdash

end EntriesUpTo

end Queue

end DocMark.Yaml
