import Mathlib.Data.List.Induction
import DocMark.Text.Lines

/-!
# The order of positions

Reading moves a position on, along the line and from line to line (`Position.Le`, `Position.Lt`).
It never comes back to where it was, so different offsets in a text have different positions.  The
position of an offset can also be looked up in a table of the offsets at which lines start
(`lineStarts`).

Main statements:

* `endOf_append` — the end of a text, by reading on from the end of its beginning;
* `positionAt_lt` — different offsets have different positions;
* `lookUp_lineStarts` — the table has an entry for every offset of the text.
-/

namespace DocMark.Text

namespace Position

variable {p q r : Position}

/-- Not behind, in the order of reading. -/
def Le (p q : Position) : Prop := p.line < q.line ∨ p.line = q.line ∧ p.column ≤ q.column

/-- Before, in the order of reading. -/
def Lt (p q : Position) : Prop := p.line < q.line ∨ p.line = q.line ∧ p.column < q.column

/-- One line further down. -/
def down (p : Position) : Position := ⟨p.line + 1, p.column⟩

theorem Le.refl (p : Position) : p.Le p := .inr ⟨rfl, Nat.le_refl _⟩

theorem Lt.le (h : p.Lt q) : p.Le q := h.imp id fun h => ⟨h.1, Nat.le_of_lt h.2⟩

theorem Le.trans (h : p.Le q) (h' : q.Le r) : p.Le r := by
  unfold Le at *
  omega

theorem Lt.trans_le (h : p.Lt q) (h' : q.Le r) : p.Lt r := by
  unfold Lt Le at *
  omega

theorem Lt.ne (h : p.Lt q) : p ≠ q := by
  rintro rfl
  unfold Lt at h
  omega

theorem lt_after (p : Position) (c : Char) : p.Lt (p.after c) := by
  unfold after
  split
  · exact .inl (Nat.lt_succ_self _)
  · exact .inr ⟨rfl, Nat.lt_succ_self _⟩

theorem down_after (p : Position) (c : Char) : (p.after c).down = p.down.after c := by
  unfold after
  split <;> rfl

theorem le_foldl_after (p : Position) (s : List Char) : p.Le (s.foldl Position.after p) := by
  induction s generalizing p with
  | nil => exact .refl p
  | cons c cs ih => exact (lt_after p c).le.trans (ih _)

theorem down_foldl_after (p : Position) (s : List Char) :
    (s.foldl Position.after p).down = s.foldl Position.after p.down := by
  induction s generalizing p with
  | nil => rfl
  | cons c cs ih => rw [List.foldl_cons, List.foldl_cons, ih, down_after]

/-- Without a line feed, reading goes along the line. -/
theorem foldl_after_of_not_mem {s : List Char} (h : '\n' ∉ s) (p : Position) :
    s.foldl Position.after p = ⟨p.line, p.column + s.length⟩ := by
  induction s generalizing p with
  | nil => rfl
  | cons c cs ih =>
    have hc : c ≠ '\n' := fun he => h (he ▸ List.mem_cons_self ..)
    have hcs : '\n' ∉ cs := fun hmem => h (List.mem_cons_of_mem _ hmem)
    rw [List.foldl_cons, ih hcs, after, if_neg hc, List.length_cons]
    congr 1
    show p.column + 1 + cs.length = _
    omega

end Position

/-! ### Positions in a text -/

theorem endOf_append (s t : List Char) : endOf (s ++ t) = t.foldl Position.after (endOf s) := by
  induction t generalizing s with
  | nil => rw [List.append_nil]; rfl
  | cons c cs ih =>
    rw [List.foldl_cons, ← endOf_concat, ← ih, List.append_assoc]
    rfl

/-- The end of a text lies behind the ends of its beginnings. -/
theorem endOf_lt_endOf_append (s : List Char) {t : List Char} (h : t ≠ []) :
    (endOf s).Lt (endOf (s ++ t)) := by
  obtain ⟨c, cs, rfl⟩ := List.exists_cons_of_ne_nil h
  rw [endOf_append]
  exact (Position.lt_after _ c).trans_le (Position.le_foldl_after _ cs)

/-- An earlier offset has an earlier position. -/
theorem positionAt_lt {text : List Char} {j k : Nat} (h : j < k) (hk : k ≤ text.length) :
    (positionAt text j).Lt (positionAt text k) := by
  have hsplit : text.take k = text.take j ++ (text.take k).drop j := by
    rw [← Nat.min_eq_left (Nat.le_of_lt h), ← List.take_take, Nat.min_eq_left (Nat.le_of_lt h),
      List.take_append_drop]
  rw [positionAt, positionAt, hsplit]
  refine endOf_lt_endOf_append _ fun hnil => ?_
  have hlength := congrArg List.length hnil
  rw [List.length_drop, List.length_take, List.length_nil] at hlength
  omega

/-! ### The starts of the lines -/

/-- Where lines start behind the line feeds of a text that stands at this offset. -/
def startsBehind (offset : Nat) (s : List Char) : List Nat :=
  ((s.zipIdx offset).filter (·.1 = '\n')).map (·.2 + 1)

/-- The offsets at which the lines of a text start. -/
def lineStarts (s : List Char) : List Nat := 0 :: startsBehind 0 s

/-- The position of an offset, told from the last start that is not behind it.  Nothing is found
where no start is that low, the table has no such entry or the entry does not fit. -/
def lookUp (starts : List Nat) (offset : Nat) : Option Position :=
  match (starts.takeWhile (· ≤ offset)).length with
  | 0 => none
  | line + 1 => do
    let start ← starts[line]?
    if start ≤ offset then some ⟨line, offset - start⟩ else none

/-- The table is in order, so it can be searched by halves. -/
theorem pairwise_lineStarts (s : List Char) : (lineStarts s).Pairwise (· < ·) := by
  have hindices : ((s.zipIdx 0).map Prod.snd).Pairwise (· < ·) := by
    rw [List.zipIdx_map_snd]
    exact List.pairwise_lt_range'
  refine List.pairwise_cons.mpr ⟨?_, ?_⟩
  · intro start hstart
    obtain ⟨_, -, rfl⟩ := List.mem_map.mp hstart
    exact Nat.succ_pos _
  · rw [startsBehind, List.pairwise_map]
    refine ((List.pairwise_map.mp hindices).filter _).imp ?_
    exact fun hlt => Nat.succ_lt_succ hlt

theorem lineStarts_append (s t : List Char) :
    lineStarts (s ++ t) = lineStarts s ++ startsBehind s.length t := by
  simp [lineStarts, startsBehind, List.zipIdx_append]

theorem bounds_of_mem_startsBehind {offset start : Nat} {s : List Char}
    (h : start ∈ startsBehind offset s) : offset < start ∧ start ≤ offset + s.length := by
  obtain ⟨⟨c, i⟩, hi, rfl⟩ := List.mem_map.mp h
  obtain ⟨hlow, hhigh, -⟩ := List.mem_zipIdx (List.mem_filter.mp hi).1
  exact ⟨Nat.lt_succ_of_le hlow, hhigh⟩

theorem le_of_mem_lineStarts {s : List Char} {start : Nat} (h : start ∈ lineStarts s) :
    start ≤ s.length := by
  rcases List.mem_cons.mp h with rfl | h
  · exact Nat.zero_le _
  · have := (bounds_of_mem_startsBehind h).2
    rwa [Nat.zero_add] at this

/-- A text ends on the line that starts last. -/
theorem lineStarts_eq_concat (s : List Char) :
    ∃ starts start, lineStarts s = starts ++ [start] ∧ starts.length = (endOf s).line ∧
      start + (endOf s).column = s.length := by
  induction s using List.reverseRecOn with
  | nil => exact ⟨[], 0, rfl, rfl, rfl⟩
  | append_singleton s c ih =>
    obtain ⟨starts, start, heq, hline, hcolumn⟩ := ih
    rw [lineStarts_append, endOf_concat, Position.after]
    by_cases hc : c = '\n'
    · exact ⟨lineStarts s, s.length + 1, by simp [startsBehind, hc], by simp [hc, heq, hline],
        by simp [hc]⟩
    · exact ⟨starts, start, by simp [startsBehind, hc, heq], by simp [hc, hline],
        by simp [hc, ← hcolumn, Nat.add_assoc]⟩

/-- Every offset of a text has a last start that is not behind it, and its position counts from
there. -/
theorem lookUp_lineStarts {s : List Char} {offset : Nat} (h : offset ≤ s.length) :
    lookUp (lineStarts s) offset = some (positionAt s offset) := by
  obtain ⟨starts, start, heq, hline, hcolumn⟩ := lineStarts_eq_concat (s.take offset)
  have hlength : (s.take offset).length = offset := List.length_take_of_le h
  have hsplit : lineStarts s = (starts ++ [start]) ++ startsBehind offset (s.drop offset) := by
    have hparts := lineStarts_append (s.take offset) (s.drop offset)
    rwa [List.take_append_drop, heq, hlength] at hparts
  -- The starts up to the offset are those of the text before it.
  have htake : (lineStarts s).takeWhile (· ≤ offset) = starts ++ [start] := by
    have hupTo : ∀ n ∈ starts ++ [start], decide (n ≤ offset) = true := by
      intro n hn
      have hle := le_of_mem_lineStarts (heq ▸ hn)
      rw [hlength] at hle
      exact decide_eq_true hle
    rw [hsplit, List.takeWhile_append_of_pos hupTo]
    cases hrest : startsBehind offset (s.drop offset) with
    | nil => simp
    | cons n ns =>
      have hbehind : offset < n :=
        (bounds_of_mem_startsBehind (hrest ▸ List.mem_cons_self (a := n) (l := ns))).1
      simp [hbehind]
  have hget : (lineStarts s)[starts.length]? = some start := by
    rw [hsplit, List.append_assoc, List.getElem?_append_right (Nat.le_refl _), Nat.sub_self]
    rfl
  have hend : positionAt s offset = ⟨starts.length, offset - start⟩ := by
    rw [hlength] at hcolumn
    rw [hline, positionAt, show offset - start = (endOf (s.take offset)).column by omega]
  have hle : start ≤ offset := by
    rw [← hlength, ← hcolumn]
    exact Nat.le_add_right _ _
  rw [lookUp, htake, List.length_append, hend]
  simp [hget, hle]

end DocMark.Text
