import DocMark.Proofs.DirectiveReach

/-!
# Markers at the end of words

A `#` begins a comment only where white space precedes it, or nothing.  Behind any other character
it goes on with the word, and so does a marker that begins with it.  The marker is looked for in the
bare line, though, and whatever precedes it is taken for the text before a comment.  So a line whose
markers all hang on words (`IsAttached`) silences rules like a comment at its end: on this line
alone, and instead of the comment above it.

Main statements:

* `IsAttached.not_alone` — such a line never aims at the next one;
* `attached_silences_own_line` — what becomes of a text if another line without a comment takes its
  place, and when nothing does.
-/

namespace DocMark

/-- Every marker of the line stands right behind a character that is not white space. -/
def IsAttached (line : List Char) : Prop :=
  ∀ before after, before ++ LineDirective.marker ++ after = line →
    ∃ x ∈ before.getLast?, Text.isSpace x = false

/-- Whether all markers hang on words is seen by looking at each end of the line. -/
theorem all_range_iff_isAttached {line : List Char} :
    (List.range (line.length + 1)).all (fun k =>
      !LineDirective.marker.isPrefixOf (line.drop k)
        || (line.take k).getLast?.any (!Text.isSpace ·)) = true ↔ IsAttached line := by
  have hmarker (k : Nat) : (!LineDirective.marker.isPrefixOf (line.drop k)
      || (line.take k).getLast?.any (!Text.isSpace ·)) = true ↔
      (LineDirective.marker <+: line.drop k →
        ∃ x ∈ (line.take k).getLast?, Text.isSpace x = false) := by
    rw [← List.isPrefixOf_iff_prefix]
    cases LineDirective.marker.isPrefixOf (line.drop k) <;> simp [Option.any_eq_true]
  rw [List.all_eq_true]
  constructor
  · rintro h before after rfl
    have hlt : before.length ∈
        List.range ((before ++ LineDirective.marker ++ after).length + 1) := by
      rw [List.mem_range, List.append_assoc, List.length_append]
      omega
    have hends := (hmarker before.length).mp (h before.length hlt)
    rw [List.append_assoc, List.drop_left, List.take_left] at hends
    exact hends (List.prefix_append ..)
  · intro h k _
    apply (hmarker k).mpr
    rintro ⟨after, hafter⟩
    apply h (line.take k) after
    rw [List.append_assoc, hafter, List.take_append_drop]

instance : DecidablePred IsAttached := fun _ => decidable_of_iff _ all_range_iff_isAttached

section Lines

variable {line : List Char} {above own : Option (List Char)} {rule : String} {c : Comment}

theorem IsAttached.not_alone (h : IsAttached line) (hon : c.On line) : ¬c.Alone := by
  intro halone
  obtain ⟨x, hx, hspace⟩ := h c.before c.after hon.line_eq
  have hx : x ∈ c.before := List.mem_of_getLast? hx
  rw [halone x hx] at hspace
  cases hspace

/-- A line above does not matter if its comment, should it carry one, aims at that line itself. -/
theorem silentOn_iff_of_above (h : ∀ c : Comment, c.OnLine above → ¬c.Alone) :
    SilentOn above own rule ↔ ∃ c : Comment, c.OnLine own ∧ ¬c.Alone ∧ c.Silences rule := by
  constructor
  · rintro (htrailing | ⟨-, c, hc, halone, -⟩)
    · exact htrailing
    · exact absurd halone (h c hc)
  · intro htrailing
    exact .inl htrailing

/-- The comment at the end of a line decides what is silent there. -/
theorem silentOn_iff_of_trailing (hc : c.OnLine own) (halone : ¬c.Alone) :
    SilentOn above own rule ↔ c.Silences rule := by
  constructor
  · rintro (⟨c', hc', -, hsilences⟩ | ⟨hown, -⟩)
    · rw [Comment.On.unique_of_mem hc hc']
      exact hsilences
    · exact absurd (hown c hc) halone
  · intro hsilences
    exact .inl ⟨c, hc, halone, hsilences⟩

/-- Lines without a comment are all the same. -/
theorem silentOn_congr_of_bare {own' : Option (List Char)} (h : ∀ c : Comment, ¬c.OnLine own)
    (h' : ∀ c : Comment, ¬c.OnLine own') :
    SilentOn above own rule ↔ SilentOn above own' rule := by
  simp [SilentOn, h, h']

end Lines

namespace Suppression

section Replaced

variable {text other : List Char} {index : Nat}

/-- Whether a line carries a comment can be computed. -/
theorem forall_not_inText_iff : (∀ c : Comment, ¬c.InText text index) ↔
    ∀ line ∈ (Text.lines text)[index]?, LineDirective.ofLine? index line = none := by
  constructor
  · intro h line hline
    rw [Option.eq_none_iff_forall_not_mem]
    intro d hd
    obtain ⟨c, hon, -⟩ := LineDirective.ofLine?_eq_some_iff.mp hd
    exact h c ⟨line, hline, hon⟩
  · rintro h c ⟨line, hline, hon⟩
    have hd : LineDirective.ofLine? index line = some (c.directive index) :=
      LineDirective.ofLine?_eq_some_iff.mpr ⟨c, hon, rfl⟩
    rw [h line hline] at hd
    cases hd

theorem lineAt?_eq_of_ne
    (hlines : ∀ i, i ≠ index → (Text.lines other)[i]? = (Text.lines text)[i]?) {n : Nat}
    (hn : n ≠ index + 1) : Text.lineAt? other n = Text.lineAt? text n := by
  cases n with
  | zero => rfl
  | succ i => exact hlines i fun h => hn (congrArg (· + 1) h)

/-- Neither a line whose markers hang on words nor one without a comment reaches another line. -/
theorem skips_eq_of_ne (hlines : ∀ i, i ≠ index → (Text.lines other)[i]? = (Text.lines text)[i]?)
    (hattached : ∀ line ∈ (Text.lines text)[index]?, IsAttached line)
    (hbare : ∀ c : Comment, ¬c.InText other index) {n : Nat} (hn : n ≠ index + 1) (rule : String) :
    (ofText text).skips n rule = (ofText other).skips n rule := by
  rw [Bool.eq_iff_iff, skips_iff_silentOn, skips_iff_silentOn, lineAt?_eq_of_ne hlines hn]
  by_cases hbelow : n = index + 2
  · subst hbelow
    have htext : ∀ c : Comment, c.OnLine (Text.lineAt? text (index + 1)) → ¬c.Alone := by
      rintro c ⟨line, hline, hon⟩
      exact (hattached line hline).not_alone hon
    have hother : ∀ c : Comment, c.OnLine (Text.lineAt? other (index + 1)) → ¬c.Alone := by
      intro c hc
      exact absurd hc (hbare c)
    show SilentOn (Text.lineAt? text (index + 1)) _ rule ↔
      SilentOn (Text.lineAt? other (index + 1)) _ rule
    rw [silentOn_iff_of_above htext, silentOn_iff_of_above hother]
  · have habove : n - 1 ≠ index + 1 := by omega
    rw [lineAt?_eq_of_ne hlines habove]

/-- A line without a comment may be replaced by another one. -/
theorem skips_eq_of_bare (hlines : ∀ i, i ≠ index → (Text.lines other)[i]? = (Text.lines text)[i]?)
    (htext : ∀ c : Comment, ¬c.InText text index) (hother : ∀ c : Comment, ¬c.InText other index)
    (rule : String) :
    (ofText text).skips (index + 1) rule = (ofText other).skips (index + 1) rule := by
  have habove : Text.lineAt? other index = Text.lineAt? text index :=
    lineAt?_eq_of_ne hlines (Nat.ne_of_lt (Nat.lt_succ_self index))
  rw [Bool.eq_iff_iff, skips_iff_silentOn, skips_iff_silentOn, Nat.add_sub_cancel, habove]
  exact silentOn_congr_of_bare htext hother

/-- The comment at the end of a line is the only one that counts there. -/
theorem skips_iff_silences {c : Comment} (hc : c.InText text index) (halone : ¬c.Alone)
    (rule : String) : (ofText text).skips (index + 1) rule = true ↔ c.Silences rule := by
  rw [skips_iff_silentOn]
  exact silentOn_iff_of_trailing hc halone

/-- Let a line without a comment take the place of one whose markers all hang on words.  Nothing
changes on other lines.  On this line the text behind the first marker is taken for a comment if no
word goes on there, and decides alone; so nothing changes at all exactly if that comment, should
there be one, silences what is silent without it. -/
theorem attached_silences_own_line (text other : List Char) (index : Nat)
    (hlines : ∀ i, i ≠ index → (Text.lines other)[i]? = (Text.lines text)[i]?)
    (hattached : ∀ line ∈ (Text.lines text)[index]?, IsAttached line)
    (hbare : ∀ c : Comment, ¬c.InText other index) :
    (∀ n rule, n ≠ index + 1 → (ofText text).skips n rule = (ofText other).skips n rule) ∧
    (∀ c : Comment, c.InText text index → ∀ rule,
      (ofText text).skips (index + 1) rule = true ↔ c.Silences rule) ∧
    ((∀ n rule, (ofText text).skips n rule = (ofText other).skips n rule) ↔
      ∀ c : Comment, c.InText text index → ∀ rule,
        c.Silences rule ↔ (ofText other).skips (index + 1) rule = true) := by
  have helsewhere : ∀ n rule, n ≠ index + 1 →
      (ofText text).skips n rule = (ofText other).skips n rule :=
    fun n rule hn => skips_eq_of_ne hlines hattached hbare hn rule
  have hown : ∀ c : Comment, c.InText text index → ∀ rule,
      (ofText text).skips (index + 1) rule = true ↔ c.Silences rule := by
    rintro c ⟨line, hline, hon⟩ rule
    exact skips_iff_silences ⟨line, hline, hon⟩ ((hattached line hline).not_alone hon) rule
  refine ⟨helsewhere, hown, ?_⟩
  constructor
  · intro hsame c hc rule
    rw [← hown c hc rule, hsame]
  · intro hagree n rule
    by_cases hn : n = index + 1
    · subst hn
      by_cases hcarries : ∃ c : Comment, c.InText text index
      · obtain ⟨c, hc⟩ := hcarries
        rw [Bool.eq_iff_iff, hown c hc rule, hagree c hc rule]
      · have hnone : ∀ c : Comment, ¬c.InText text index := fun c hc => hcarries ⟨c, hc⟩
        exact skips_eq_of_bare hlines hnone hbare rule
    · exact helsewhere n rule hn

/-- A marker on a word makes a rule heard that the comment above silences, and no other line. -/
theorem attached_silences_own_line_below_comment :
    let text := "# yamlint disable-line\na: b# yamlint disable-line rule:x\nc: 1\n".toList
    let other := "# yamlint disable-line\na: b\nc: 1\n".toList
    (∀ i, i ≠ 1 → (Text.lines other)[i]? = (Text.lines text)[i]?) ∧
      (∀ line ∈ (Text.lines text)[1]?, IsAttached line) ∧
      (∀ c : Comment, ¬c.InText other 1) ∧
      (ofText text).skips 2 "y" = false ∧ (ofText other).skips 2 "y" = true ∧
      (ofText text).skips 3 "x" = (ofText other).skips 3 "x" ∧
      ¬∀ n rule, (ofText text).skips n rule = (ofText other).skips n rule := by
  intro text other
  have htext : Text.lines text = ["# yamlint disable-line".toList,
      "a: b# yamlint disable-line rule:x".toList, "c: 1".toList] := by decide +kernel
  have hother : Text.lines other = (Text.lines text).set 1 "a: b".toList := by decide +kernel
  have hlines : ∀ i, i ≠ 1 → (Text.lines other)[i]? = (Text.lines text)[i]? := by
    intro i hi
    rw [hother, List.getElem?_set_ne hi.symm]
  have hattached : ∀ line ∈ (Text.lines text)[1]?, IsAttached line := by
    rw [htext]
    rintro _ ⟨⟩
    decide +kernel
  have hbare : ∀ c : Comment, ¬c.InText other 1 := forall_not_inText_iff.mpr (by decide +kernel)
  have hheard : (ofText text).skips 2 "y" = false := by decide +kernel
  have hsilent : (ofText other).skips 2 "y" = true := by decide +kernel
  have hlaw := attached_silences_own_line text other 1 hlines hattached hbare
  refine ⟨hlines, hattached, hbare, hheard, hsilent, hlaw.1 3 "x" (by decide), ?_⟩
  intro hsame
  rw [hsame, hsilent] at hheard
  cases hheard

/-- A rule is silent on a line that has its only marker inside a scalar. -/
theorem attached_marker_silences :
    let text := "a: b# yamlint disable-line\n".toList
    let other := "a: b\n".toList
    (∀ i, i ≠ 0 → (Text.lines other)[i]? = (Text.lines text)[i]?) ∧
      (∀ line ∈ (Text.lines text)[0]?, IsAttached line) ∧
      (∀ c : Comment, ¬c.InText other 0) ∧
      (ofText text).skips 1 "document-start" = true ∧
      (ofText other).skips 1 "document-start" = false := by
  intro text other
  have htext : Text.lines text = ["a: b# yamlint disable-line".toList] := by decide +kernel
  have hother : Text.lines other = (Text.lines text).set 0 "a: b".toList := by decide +kernel
  have hlines : ∀ i, i ≠ 0 → (Text.lines other)[i]? = (Text.lines text)[i]? := by
    intro i hi
    rw [hother, List.getElem?_set_ne hi.symm]
  have hattached : ∀ line ∈ (Text.lines text)[0]?, IsAttached line := by
    rw [htext]
    rintro _ ⟨⟩
    decide +kernel
  exact ⟨hlines, hattached, forall_not_inText_iff.mpr (by decide +kernel), by decide +kernel,
    by decide +kernel⟩

end Replaced

end Suppression

end DocMark
