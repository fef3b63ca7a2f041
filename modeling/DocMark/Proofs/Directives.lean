import DocMark.Suppression

/-!
# What the comments of a text silence

A comment aims at one line: at its own, if something precedes it there, else at the next one.  So a
line can be aimed at twice, from above and from its own end, and then the comment at its end counts
alone.  It cannot silence less than nothing, but it can silence less than the comment above it: if
it names rules, those that only the other one silences are heard again (`Overruled`).

Main statements:

* `ofLine?_eq_some_iff` — which comment a line carries, in terms of the line alone;
* `find?_reverse_directivesFrom` — of the comments that aim at a line, the last one counts;
* `skips_iff_silenced` — a rule is silent if some comment silences it and none overrules that one,
  and a comment that is added to a line can take effect away from others only on this line.
-/

namespace DocMark

/-! ### Comments on a line -/

/-- A comment of a line: the text before its marker and the text behind it. -/
structure Comment where
  before : List Char
  after : List Char

namespace Comment

open LineDirective (marker)

/-- The line carries the comment.  It is the first occurrence of the marker that counts, and only if
no word goes on behind it. -/
structure On (c : Comment) (line : List Char) : Prop where
  line_eq : c.before ++ marker ++ c.after = line
  first : ∀ before after, before ++ marker ++ after = line → c.before.length ≤ before.length
  ended : ∀ x ∈ c.after.head?, Text.isSpace x = true

/-- Nothing but white space precedes the comment. -/
def Alone (c : Comment) : Prop := ∀ x ∈ c.before, Text.isSpace x = true

/-- The comment of a line with `index` lines before it aims at this line, counted from one. -/
def AimsAt (c : Comment) (index n : Nat) : Prop :=
  (c.Alone ∧ n = index + 2) ∨ (¬c.Alone ∧ n = index + 1)

/-- The comment names no rule, or this one. -/
def Silences (c : Comment) (rule : String) : Prop :=
  (∀ word ∈ Text.words c.after, ¬"rule:".toList <+: word) ∨
    "rule:".toList ++ rule.toList ∈ Text.words c.after

/-- The text has the comment on the line with `index` lines before it. -/
def InText (c : Comment) (text : List Char) (index : Nat) : Prop :=
  ∃ line ∈ (Text.lines text)[index]?, c.On line

end Comment

/-- Some comment of the text silences the rule on this line. -/
def Silenced (text : List Char) (n : Nat) (rule : String) : Prop :=
  ∃ index, ∃ c : Comment, c.InText text index ∧ c.AimsAt index n ∧ c.Silences rule

/-- The line ends with a comment that names rules, but not this one. -/
def Overruled (text : List Char) (n : Nat) (rule : String) : Prop :=
  ∃ index, ∃ c : Comment, c.InText text index ∧ ¬c.Alone ∧ n = index + 1 ∧ ¬c.Silences rule

namespace Comment

variable {c c' : Comment} {line text : List Char} {index index' n : Nat}

theorem On.cut_eq (h : c.On line) :
    Text.cut LineDirective.marker line = some (c.before, c.after) :=
  Text.cut_eq_some_iff.mpr ⟨h.line_eq, h.first⟩

/-- A line carries at most one comment. -/
theorem On.unique (h : c.On line) (h' : c'.On line) : c = c' := by
  have heq := h.cut_eq.symm.trans h'.cut_eq
  rw [Option.some.injEq, Prod.mk.injEq] at heq
  cases c
  cases c'
  rw [mk.injEq]
  exact heq

theorem On.unique_of_mem {line? : Option (List Char)} (h : ∃ line ∈ line?, c.On line)
    (h' : ∃ line ∈ line?, c'.On line) : c = c' := by
  obtain ⟨line, hline, hon⟩ := h
  obtain ⟨line', hline', hon'⟩ := h'
  rw [Option.mem_unique hline' hline] at hon'
  exact hon.unique hon'

theorem InText.unique (h : c.InText text index) (h' : c'.InText text index) : c = c' :=
  On.unique_of_mem h h'

theorem InText.congr {other : List Char} (h : c.InText text index)
    (hlines : (Text.lines other)[index]? = (Text.lines text)[index]?) : c.InText other index := by
  rw [InText, hlines]
  exact h

/-- No comment aims further than at the next line, and none aims back. -/
theorem AimsAt.bounds (h : c.AimsAt index n) : index + 1 ≤ n ∧ n ≤ index + 2 := by
  rcases h with ⟨-, rfl⟩ | ⟨-, rfl⟩
  · exact ⟨Nat.le_succ _, Nat.le_refl _⟩
  · exact ⟨Nat.le_refl _, Nat.le_succ _⟩

/-- Of two comments that aim at a line, the later one stands at the end of that line. -/
theorem AimsAt.of_lt (h : c.AimsAt index n) (h' : c'.AimsAt index' n) (hlt : index < index') :
    ¬c'.Alone ∧ n = index' + 1 := by
  have := h.bounds.2
  rcases h' with ⟨-, heq⟩ | h'
  · omega
  · exact h'

/-! ### Comments as directives -/

/-- What a comment says on a line with `index` lines before it. -/
def directive (c : Comment) (index : Nat) : LineDirective where
  target := if Text.isBlank c.before then index + 2 else index + 1
  rules := (Text.words c.after).filterMap LineDirective.ruleOfWord?

theorem isBlank_before_iff (c : Comment) : Text.isBlank c.before = true ↔ c.Alone :=
  List.all_eq_true

theorem target_directive_eq_iff : (c.directive index).target = n ↔ c.AimsAt index n := by
  show (if Text.isBlank c.before then index + 2 else index + 1) = n ↔ _
  split
  · next h =>
    have halone : c.Alone := c.isBlank_before_iff.mp h
    exact ⟨fun heq => .inl ⟨halone, heq.symm⟩,
      fun haims => haims.elim (·.2.symm) fun hnot => absurd halone hnot.1⟩
  · next h =>
    have halone : ¬c.Alone := fun halone => h (c.isBlank_before_iff.mpr halone)
    exact ⟨fun heq => .inr ⟨halone, heq.symm⟩,
      fun haims => haims.elim (fun hnot => absurd hnot.1 halone) (·.2.symm)⟩

end Comment

namespace LineDirective

theorem ruleOfWord?_eq_none_iff {word : List Char} :
    ruleOfWord? word = none ↔ ¬"rule:".toList <+: word := by
  rw [ruleOfWord?, ← List.isPrefixOf_iff_prefix]
  split
  · next h => exact ⟨nofun, fun hnot => absurd h hnot⟩
  · next h => exact ⟨fun _ => h, fun _ => rfl⟩

theorem ruleOfWord?_eq_some_iff {word : List Char} {rule : String} :
    ruleOfWord? word = some rule ↔ word = "rule:".toList ++ rule.toList := by
  rw [ruleOfWord?]
  split
  · next h =>
    obtain ⟨name, rfl⟩ := List.isPrefixOf_iff_prefix.mp h
    rw [List.drop_left, Option.some.injEq, List.append_cancel_left_eq]
    exact ⟨fun heq => by rw [← heq, String.toList_ofList],
      fun heq => by rw [heq, String.ofList_toList]⟩
  · next h =>
    refine ⟨nofun, ?_⟩
    rintro rfl
    exact absurd (List.isPrefixOf_iff_prefix.mpr (List.prefix_append ..)) h

theorem silences_directive_iff {c : Comment} {index : Nat} {rule : String} :
    (c.directive index).silences rule = true ↔ c.Silences rule := by
  rw [silences, Bool.or_eq_true, List.isEmpty_iff, List.contains_iff_mem, Comment.Silences]
  refine or_congr ?_ ?_
  · show List.filterMap _ _ = [] ↔ _
    rw [List.filterMap_eq_nil_iff]
    exact forall₂_congr fun word _ => ruleOfWord?_eq_none_iff
  · show rule ∈ List.filterMap _ _ ↔ _
    simp only [List.mem_filterMap, ruleOfWord?_eq_some_iff, exists_eq_right]

/-- A line has a directive exactly if it carries a comment, and it says what the comment says. -/
theorem ofLine?_eq_some_iff {index : Nat} {line : List Char} {d : LineDirective} :
    ofLine? index line = some d ↔ ∃ c : Comment, c.On line ∧ d = c.directive index := by
  rw [ofLine?]
  constructor
  · intro h
    split at h
    · cases h
    · next before after hcut =>
      split at h
      · cases h
      · next hended =>
        obtain ⟨hline, hfirst⟩ := Text.cut_eq_some_iff.mp hcut
        refine ⟨⟨before, after⟩, ⟨hline, hfirst, ?_⟩, (Option.some.inj h).symm⟩
        intro x hx
        simpa [show after.head? = some x from hx] using hended
  · rintro ⟨c, hon, rfl⟩
    rw [hon.cut_eq]
    have hended : c.after.head?.any (!Text.isSpace ·) = false := by
      rw [Option.any_eq_false]
      intro x hx
      simp [hon.ended x hx]
    simp only [hended]
    rfl

end LineDirective

/-! ### The comment that counts -/

namespace Suppression

/-- Counting lines from `first`, the line with this index has a directive. -/
def DirectiveAt (first : Nat) (lines : List (List Char)) (index : Nat) (d : LineDirective) : Prop :=
  ∃ line ∈ lines[index]?, LineDirective.ofLine? (first + index) line = some d

theorem directiveAt_succ {first : Nat} {line : List Char} {lines : List (List Char)} {index : Nat}
    {d : LineDirective} :
    DirectiveAt first (line :: lines) (index + 1) d ↔ DirectiveAt (first + 1) lines index d := by
  rw [DirectiveAt, DirectiveAt, List.getElem?_cons_succ, Nat.add_right_comm, Nat.add_assoc]

theorem mem_directivesFrom {first : Nat} {lines : List (List Char)} {d : LineDirective} :
    d ∈ directivesFrom first lines ↔ ∃ index, DirectiveAt first lines index d := by
  induction lines generalizing first with
  | nil => simp [directivesFrom, DirectiveAt]
  | cons line lines ih =>
    rw [directivesFrom, List.mem_append, ih, Option.mem_toList]
    constructor
    · rintro (hline | ⟨index, hindex⟩)
      · exact ⟨0, line, rfl, hline⟩
      · exact ⟨index + 1, directiveAt_succ.mpr hindex⟩
    · rintro ⟨index, hindex⟩
      cases index with
      | zero =>
        obtain ⟨_, hline, hd⟩ := hindex
        cases hline
        exact .inl hd
      | succ index => exact .inr ⟨index, directiveAt_succ.mp hindex⟩

/-- The directive that is found for a line is the last of those that aim at it. -/
theorem find?_reverse_directivesFrom {first : Nat} {lines : List (List Char)} {n : Nat}
    {d : LineDirective} :
    (directivesFrom first lines).reverse.find? (·.target = n) = some d ↔
      ∃ index, DirectiveAt first lines index d ∧ d.target = n ∧
        ∀ later, index < later → ∀ d', DirectiveAt first lines later d' → d'.target ≠ n := by
  induction lines generalizing first with
  | nil => simp [directivesFrom, DirectiveAt]
  | cons line lines ih =>
    -- The rest of the lines comes first when the last directive is looked for.
    rw [directivesFrom, List.reverse_append, List.find?_append, Option.or_eq_some_iff, ih]
    constructor
    · rintro (⟨index, hd, htarget, hlast⟩ | ⟨hnone, hfound⟩)
      · refine ⟨index + 1, directiveAt_succ.mpr hd, htarget, fun later hlater d' hd' => ?_⟩
        cases later with
        | zero => exact absurd hlater (Nat.not_lt_zero _)
        | succ later =>
          exact hlast later (Nat.lt_of_succ_lt_succ hlater) d' (directiveAt_succ.mp hd')
      · have hmem := List.mem_of_find?_eq_some hfound
        rw [List.mem_reverse, Option.mem_toList] at hmem
        refine ⟨0, ⟨line, rfl, hmem⟩, by simpa using List.find?_some hfound, ?_⟩
        intro later hlater d' hd' htarget
        cases later with
        | zero => exact absurd hlater (Nat.lt_irrefl _)
        | succ later =>
          have hmem' := mem_directivesFrom.mpr ⟨later, directiveAt_succ.mp hd'⟩
          have := List.find?_eq_none.mp hnone d' (List.mem_reverse.mpr hmem')
          exact this (decide_eq_true htarget)
    · rintro ⟨index, hd, htarget, hlast⟩
      cases index with
      | zero =>
        refine .inr ⟨List.find?_eq_none.mpr fun d' hd' => ?_, ?_⟩
        · obtain ⟨later, hlater⟩ := mem_directivesFrom.mp (List.mem_reverse.mp hd')
          have := hlast (later + 1) (Nat.succ_pos _) d' (directiveAt_succ.mpr hlater)
          simpa using this
        · obtain ⟨_, hline, hd⟩ := hd
          cases hline
          have hd : LineDirective.ofLine? first line = some d := hd
          rw [hd]
          simp [htarget]
      | succ index =>
        refine .inl ⟨index, directiveAt_succ.mp hd, htarget, fun later hlater d' hd' => ?_⟩
        exact hlast (later + 1) (Nat.succ_lt_succ hlater) d' (directiveAt_succ.mpr hd')

theorem directiveAt_lines_iff {text : List Char} {index : Nat} {d : LineDirective} :
    DirectiveAt 0 (Text.lines text) index d ↔
      ∃ c : Comment, c.InText text index ∧ d = c.directive index := by
  rw [DirectiveAt, Nat.zero_add]
  constructor
  · rintro ⟨line, hline, hd⟩
    obtain ⟨c, hon, heq⟩ := LineDirective.ofLine?_eq_some_iff.mp hd
    exact ⟨c, ⟨line, hline, hon⟩, heq⟩
  · rintro ⟨c, ⟨line, hline, hon⟩, heq⟩
    exact ⟨line, hline, LineDirective.ofLine?_eq_some_iff.mpr ⟨c, hon, heq⟩⟩

/-- The rule is silent exactly if the last comment that aims at the line silences it. -/
theorem skips_iff_last {text : List Char} {n : Nat} {rule : String} :
    (ofText text).skips n rule = true ↔
      ∃ index, ∃ c : Comment, c.InText text index ∧ c.AimsAt index n ∧ c.Silences rule ∧
        ∀ later, index < later → ∀ c' : Comment, c'.InText text later → ¬c'.AimsAt later n := by
  rw [skips, Option.any_eq_true]
  show (∃ d, (directivesFrom 0 (Text.lines text)).reverse.find? _ = some d ∧ _) ↔ _
  simp only [find?_reverse_directivesFrom, directiveAt_lines_iff]
  constructor
  · rintro ⟨_, ⟨index, ⟨c, hc, rfl⟩, htarget, hlast⟩, hsilences⟩
    refine ⟨index, c, hc, Comment.target_directive_eq_iff.mp htarget,
      LineDirective.silences_directive_iff.mp hsilences, fun later hlater c' hc' haims => ?_⟩
    exact hlast later hlater _ ⟨c', hc', rfl⟩ (Comment.target_directive_eq_iff.mpr haims)
  · rintro ⟨index, c, hc, haims, hsilences, hlast⟩
    refine ⟨_, ⟨index, ⟨c, hc, rfl⟩, Comment.target_directive_eq_iff.mpr haims, ?_⟩,
      LineDirective.silences_directive_iff.mpr hsilences⟩
    rintro later hlater _ ⟨c', hc', rfl⟩ htarget
    exact hlast later hlater c' hc' (Comment.target_directive_eq_iff.mp htarget)

/-- A comment that silences the rule counts unless the line ends with one that does not. -/
theorem skips_iff_silenced_and_not_overruled {text : List Char} {n : Nat} {rule : String} :
    (ofText text).skips n rule = true ↔ Silenced text n rule ∧ ¬Overruled text n rule := by
  rw [skips_iff_last]
  constructor
  · rintro ⟨index, c, hc, haims, hsilences, hlast⟩
    refine ⟨⟨index, c, hc, haims, hsilences⟩, ?_⟩
    rintro ⟨own, c', hc', halone, hown, hnot⟩
    rcases Nat.lt_or_ge index own with hlt | hge
    · exact hlast own hlt c' hc' (.inr ⟨halone, hown⟩)
    · have heq : own = index := by
        have := haims.bounds
        omega
      subst heq
      exact hnot (hc'.unique hc ▸ hsilences)
  · rintro ⟨⟨index, c, hc, haims, hsilences⟩, hnot⟩
    -- A comment at the end of the line comes last; without one, the comment above it does.
    by_cases hlater : ∃ own, ∃ c' : Comment, c'.InText text own ∧ ¬c'.Alone ∧ n = own + 1
    · obtain ⟨own, c', hc', halone, hown⟩ := hlater
      have hsilences' : c'.Silences rule :=
        Classical.not_not.mp fun h => hnot ⟨own, c', hc', halone, hown, h⟩
      refine ⟨own, c', hc', .inr ⟨halone, hown⟩, hsilences', fun later hlt _ _ haims' => ?_⟩
      have := haims'.bounds
      omega
    · refine ⟨index, c, hc, haims, hsilences, fun later hlt c' hc' haims' => ?_⟩
      exact hlater ⟨later, c', hc', haims.of_lt haims' hlt⟩

/-- A rule is silent on a line exactly if some comment silences it there, unless the line ends with
a comment that names other rules only.  So a comment on a line that had none takes effect away from
another one only on this line, and only in this way. -/
theorem skips_iff_silenced (text : List Char) (n : Nat) (rule : String) :
    ((ofText text).skips n rule = true ↔ Silenced text n rule ∧ ¬Overruled text n rule) ∧
    ∀ other index,
      (∀ i, i ≠ index → (Text.lines other)[i]? = (Text.lines text)[i]?) →
      (∀ c : Comment, ¬c.InText text index) →
      (ofText text).skips n rule = true →
      (ofText other).skips n rule = true ∨ n = index + 1 ∧ Overruled other n rule := by
  refine ⟨skips_iff_silenced_and_not_overruled, fun other index hlines hnone hskips => ?_⟩
  obtain ⟨⟨i, c, hc, haims, hsilences⟩, hnot⟩ := skips_iff_silenced_and_not_overruled.mp hskips
  have hi : i ≠ index := fun heq => hnone c (heq ▸ hc)
  have hsilenced : Silenced other n rule := ⟨i, c, hc.congr (hlines i hi), haims, hsilences⟩
  by_cases hoverruled : Overruled other n rule
  · refine .inr ⟨?_, hoverruled⟩
    obtain ⟨own, c', hc', halone, hown, hnot'⟩ := hoverruled
    by_cases heq : own = index
    · rw [hown, heq]
    · exact absurd ⟨own, c', hc'.congr (hlines own heq).symm, halone, hown, hnot'⟩ hnot
  · exact .inl (skips_iff_silenced_and_not_overruled.mpr ⟨hsilenced, hoverruled⟩)

/-- The rule that both comments silence stays silent, also when a further line gets a comment. -/
theorem skips_iff_silenced_twice :
    let first := "# yamlint disable-line\na: 1 # yamlint disable-line rule:other\n".toList
    let text := first ++ "b: 2\n".toList
    let other := first ++ "# yamlint disable-line rule:x\n".toList
    (Silenced text 2 "other" ∧ ¬Overruled text 2 "other") ∧
      (ofText other).skips 2 "other" = true := by
  intro first text other
  have hfirst : Text.lines first =
      ["# yamlint disable-line".toList, "a: 1 # yamlint disable-line rule:other".toList] := by
    decide +kernel
  have htext : Text.lines text = Text.lines first ++ ["b: 2".toList] := by decide +kernel
  have hother : Text.lines other =
      Text.lines first ++ ["# yamlint disable-line rule:x".toList] := by
    decide +kernel
  have hlines : ∀ i, i ≠ 2 → (Text.lines other)[i]? = (Text.lines text)[i]? := by
    intro i hi
    rw [htext, hother, hfirst]
    match i with
    | 0 => rfl
    | 1 => rfl
    | 2 => exact absurd rfl hi
    | _ + 3 => rfl
  have hnone : ∀ c : Comment, ¬c.InText text 2 := by
    rintro c ⟨line, hline, hon⟩
    rw [htext, hfirst] at hline
    cases hline
    cases hon.cut_eq
  have hskips : (ofText text).skips 2 "other" = true := by decide +kernel
  have hlaw := skips_iff_silenced text 2 "other"
  exact ⟨hlaw.1.mp hskips, (hlaw.2 other 2 hlines hnone hskips).resolve_right fun h => nomatch h.1⟩

/-- A comment at the end of a line makes a rule heard again that the comment above it silences. -/
theorem silenced_but_not_skipped :
    let text := "# yamlint disable-line\na: 1\n".toList
    let other := "# yamlint disable-line\na: 1 # yamlint disable-line rule:other\n".toList
    (ofText text).skips 2 "document-start" = true ∧
      Silenced other 2 "document-start" ∧ (ofText other).skips 2 "document-start" = false := by
  refine ⟨by decide +kernel, ⟨0, ⟨[], []⟩, ⟨_, rfl, ?_⟩, .inl ⟨nofun, rfl⟩, .inl nofun⟩,
    by decide +kernel⟩
  exact ⟨rfl, fun _ _ _ => Nat.zero_le _, nofun⟩

end Suppression

end DocMark
