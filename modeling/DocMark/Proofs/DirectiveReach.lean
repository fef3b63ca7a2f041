import DocMark.Proofs.Directives

/-!
# How far a comment reaches

A comment aims at its own line or at the next one, so whether a rule is silent on a line can be told
from two lines of the text: from the line itself and from the one above it (`SilentOn`).  A comment
at the end of the line decides alone; only where there is none, a comment that stands alone on the
line above does.  All other lines may hold what they like.

Main statements:

* `skips_iff_silentOn` — what is silent on a line, read off the two lines;
* `skips_reads_two_lines` — so texts that agree on the two lines agree on what is silent there.
-/

namespace DocMark

namespace Text

/-- The line with this number, counted from one. -/
def lineAt? (text : List Char) : Nat → Option (List Char)
  | 0 => none
  | n + 1 => (lines text)[n]?

@[simp] theorem lineAt?_zero (text : List Char) : lineAt? text 0 = none := rfl

end Text

/-- The line is there and carries the comment. -/
def Comment.OnLine (c : Comment) (line? : Option (List Char)) : Prop := ∃ line ∈ line?, c.On line

/-- The rule is silent on a line that has another one above it: by the comment at its end or, if it
ends without one, by the comment that stands alone above. -/
def SilentOn (above own : Option (List Char)) (rule : String) : Prop :=
  (∃ c : Comment, c.OnLine own ∧ ¬c.Alone ∧ c.Silences rule) ∨
    (∀ c : Comment, c.OnLine own → c.Alone) ∧
      ∃ c : Comment, c.OnLine above ∧ c.Alone ∧ c.Silences rule

namespace Suppression

variable {text : List Char} {n : Nat} {rule : String} {c : Comment}

/-- The comment at the end of a line is the only one there, so no other overrules it. -/
theorem silenced_of_trailing (hc : c.OnLine (Text.lineAt? text n)) (halone : ¬c.Alone)
    (hsilences : c.Silences rule) : Silenced text n rule ∧ ¬Overruled text n rule := by
  cases n with
  | zero =>
    obtain ⟨line, hline, -⟩ := hc
    cases hline
  | succ i =>
    have hc : c.InText text i := hc
    refine ⟨⟨i, c, hc, .inr ⟨halone, rfl⟩, hsilences⟩, ?_⟩
    rintro ⟨own, c', hc', -, hown, hnot⟩
    obtain rfl : i = own := Nat.succ.inj hown
    rw [hc'.unique hc] at hnot
    exact hnot hsilences

/-- The comment above a line counts if none ends the line. -/
theorem silenced_of_above (hown : ∀ c : Comment, c.OnLine (Text.lineAt? text n) → c.Alone)
    (hc : c.OnLine (Text.lineAt? text (n - 1))) (halone : c.Alone) (hsilences : c.Silences rule) :
    Silenced text n rule ∧ ¬Overruled text n rule := by
  match n with
  | 0 | 1 =>
    obtain ⟨line, hline, -⟩ := hc
    cases hline
  | i + 2 =>
    refine ⟨⟨i, c, hc, .inl ⟨halone, rfl⟩, hsilences⟩, ?_⟩
    rintro ⟨own, c', hc', halone', heq, -⟩
    obtain rfl : i + 1 = own := Nat.succ.inj heq
    exact halone' (hown c' hc')

theorem silentOn_of_silenced (h : Silenced text n rule) (hnot : ¬Overruled text n rule) :
    SilentOn (Text.lineAt? text (n - 1)) (Text.lineAt? text n) rule := by
  obtain ⟨i, c, hc, haims, hsilences⟩ := h
  rcases haims with ⟨halone, rfl⟩ | ⟨halone, rfl⟩
  · -- The comment stands above.  One at the end of the line has to silence the rule as well.
    by_cases hown : ∃ c' : Comment, c'.OnLine (Text.lineAt? text (i + 2)) ∧ ¬c'.Alone
    · obtain ⟨c', hc', halone'⟩ := hown
      refine .inl ⟨c', hc', halone', Classical.not_not.mp fun hother => ?_⟩
      exact hnot ⟨i + 1, c', hc', halone', rfl, hother⟩
    · refine .inr ⟨fun c' hc' => Classical.not_not.mp fun halone' => ?_, c, hc, halone, hsilences⟩
      exact hown ⟨c', hc', halone'⟩
  · exact .inl ⟨c, hc, halone, hsilences⟩

theorem skips_iff_silentOn :
    (ofText text).skips n rule = true ↔
      SilentOn (Text.lineAt? text (n - 1)) (Text.lineAt? text n) rule := by
  rw [skips_iff_silenced_and_not_overruled]
  constructor
  · rintro ⟨hsilenced, hnot⟩
    exact silentOn_of_silenced hsilenced hnot
  · rintro (⟨c, hc, halone, hsilences⟩ | ⟨hown, c, hc, halone, hsilences⟩)
    · exact silenced_of_trailing hc halone hsilences
    · exact silenced_of_above hown hc halone hsilences

/-- Whether a rule is silent on a line is told by this line and the one above.  So two texts that
have the same there agree on it, whatever their other lines are, and nothing is silent above the
first line. -/
theorem skips_reads_two_lines (n : Nat) (rule : String) :
    (∀ text, (ofText text).skips n rule = true ↔
      SilentOn (Text.lineAt? text (n - 1)) (Text.lineAt? text n) rule) ∧
    (∀ text other, Text.lineAt? text n = Text.lineAt? other n →
      Text.lineAt? text (n - 1) = Text.lineAt? other (n - 1) →
      (ofText text).skips n rule = (ofText other).skips n rule) ∧
    ∀ text, (ofText text).skips 0 rule = false := by
  refine ⟨fun text => skips_iff_silentOn, ?_, ?_⟩
  · intro text other hown habove
    rw [Bool.eq_iff_iff, skips_iff_silentOn, skips_iff_silentOn, hown, habove]
  · intro text
    rw [← Bool.not_eq_true, skips_iff_silentOn]
    simp [SilentOn, Comment.OnLine]

/-- A comment on the first line does not reach the third. -/
theorem skips_reads_two_lines_below :
    let tail := "a: 1\nb: 2 # yamlint disable-line rule:x\n".toList
    let text := "# yamlint disable-line\n".toList ++ tail
    let other := "---\n".toList ++ tail
    Text.lineAt? text 3 = Text.lineAt? other 3 ∧ Text.lineAt? text 2 = Text.lineAt? other 2 ∧
      (ofText text).skips 3 "x" = (ofText other).skips 3 "x" ∧
      (ofText other).skips 3 "x" = true := by
  intro tail text other
  have hown : Text.lineAt? text 3 = Text.lineAt? other 3 := by decide +kernel
  have habove : Text.lineAt? text 2 = Text.lineAt? other 2 := by decide +kernel
  have hsame := (skips_reads_two_lines 3 "x").2.1 text other hown habove
  exact ⟨hown, habove, hsame, by decide +kernel⟩

end Suppression

end DocMark
