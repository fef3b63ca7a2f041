import DocMark.Proofs.Reading

/-!
# What scalars, tags and directives read

One lemma for each function that reads a part of a token.  The functions that go in a loop take a
text that bounds their steps; the lemmas are by induction on it and hold for any bound, for a loop
that stops early has read something, too.
-/

namespace DocMark.Yaml.Cursor

/-! ### Quoted scalars -/

theorem escape_reads (m : Mark) {c : Cursor} (h : c.Ahead 1) : Ensures (escape m c) c.ReadsTo := by
  simp only [escape]
  split
  · exact .error _
  · next hescape =>
    split
    · exact .error _
    · next hdigits =>
      split
      · exact .error _
      · simp only [Bool.or_eq_true, not_or, Bool.not_eq_true', Bool.not_eq_false,
          decide_eq_true_eq, Nat.not_lt] at hescape hdigits
        have htwo : c.Ahead 2 := h.succ (isInline_of isEscape (by decide) (by decide) hescape)
        obtain ⟨n, hn⟩ : ∃ n, n = escapeDigits (c.peek 1) := ⟨_, rfl⟩
        rw [← hn] at hdigits ⊢
        have hrest : Text.StaysOnLine (c.rest.drop 2) n := by
          refine ⟨Nat.le_trans hdigits.1 (List.length_take_le' n _), fun hmem => ?_⟩
          exact absurd (List.all_eq_true.mp hdigits.2 _ hmem) (by decide)
        rw [Nat.add_comm]
        exact .ok (skip_reads (htwo.add hrest))

theorem quotedWordUpTo_reads (m : Mark) (q : Quote) (bound : List Char) (c : Cursor) :
    Ensures (quotedWordUpTo m q bound c) fun r => c.ReadsTo r.2 := by
  induction bound generalizing c with
  | nil => exact .ok (.refl c)
  | cons _ more ih =>
    simp only [quotedWordUpTo]
    split
    · exact .ok (.refl c)
    · next hsep =>
      have hone : c.Ahead 1 := ahead_one (isInline_of_not_isSeparator hsep)
      split
      · next hquotes =>
        have htwo : c.Ahead 2 := by
          refine hone.succ ?_
          simp only [Bool.and_eq_true, decide_eq_true_eq] at hquotes
          rw [hquotes.2]
          rfl
        exact (ih _).mono fun _ h => (skip_reads htwo).trans h
      · split
        · exact .ok (.refl c)
        · split
          · split
            · exact .ok ((skip_reads hone).trans (newline_reads _))
            · exact (escape_reads m hone).bind fun c' hc' => (ih c').mono fun _ h => hc'.trans h
          · exact (ih _).mono fun _ h => (skip_reads hone).trans h

theorem quotedGapUpTo_reads (indent : Int) (bound : List Char) (joined : Bool) (c : Cursor) :
    Ensures (quotedGapUpTo indent bound joined c) c.ReadsTo := by
  induction bound generalizing joined c with
  | nil => exact .ok (.refl c)
  | cons _ more ih =>
    simp only [quotedGapUpTo]
    split
    · next hblank =>
      split
      · exact .error _
      · have hone : c.Ahead 1 := ahead_one (isInline_of_isBlank hblank)
        exact (ih _ _).mono fun _ h => (blanks_reads hone).trans h
    · split
      · exact (ih _ _).mono fun _ h => (newline_reads c).trans h
      · exact .ok (.refl c)

/-- The loop stops before the closing quotation mark only. -/
theorem quotedUpTo_reads (m : Mark) (q : Quote) (indent : Int) (bound : List Char) (c : Cursor) :
    Ensures (quotedUpTo m q indent bound c) fun c' => c.ReadsTo c' ∧ c'.peek = q.char := by
  induction bound generalizing c with
  | nil => exact .error _
  | cons _ more ih =>
    simp only [quotedUpTo]
    split
    · exact .error _
    · split
      · exact .error _
      · split
        · exact .error _
        · refine (quotedWordUpTo_reads m q c.rest c).bind fun r hr => ?_
          split
          · next hclosed => exact .ok ⟨hr, hclosed⟩
          · refine (quotedGapUpTo_reads indent _ _ _).bind fun c' hc' => ?_
            exact (ih c').mono fun _ h => ⟨(hr.trans hc').trans h.1, h.2⟩

theorem isInline_char (q : Quote) : isInline q.char = true := by
  cases q <;> rfl

theorem quoted_reads (q : Quote) (indent : Int) {c : Cursor} (h : c.Ahead 1) :
    Ensures (c.quoted q indent) c.ReadsTo := by
  refine (quotedUpTo_reads _ q indent _ _).bind fun c' hc' => ?_
  have hclose : c'.Ahead 1 := ahead_one (by rw [hc'.2]; exact isInline_char q)
  refine (skipBlanks_reads _).bind fun r hr => ?_
  exact .ok ((((skip_reads h).trans hc'.1).trans (skip_reads hclose)).trans hr.1)

/-! ### Plain scalars -/

theorem staysOnLine_plainWordLength (inFlow : Bool) (s : List Char) :
    Text.StaysOnLine s (plainWordLength inFlow s) := by
  induction s with
  | nil => exact .zero []
  | cons d ds ih =>
    rw [plainWordLength]
    split
    · exact .zero _
    · next hends =>
      refine ih.cons fun hd => hends ?_
      rw [hd]
      rfl

theorem plainWord_reads (inFlow : Bool) (c : Cursor) : c.ReadsTo (c.plainWord inFlow) := by
  unfold plainWord
  split
  · exact .refl c
  · exact skip_reads (staysOnLine_plainWordLength inFlow c.rest)

theorem plainGapUpTo_reads (m : Mark) (indent : Int) (bound : List Char) (c : Cursor) :
    Ensures (plainGapUpTo m indent bound c) c.ReadsTo := by
  induction bound generalizing c with
  | nil => exact .ok (.refl c)
  | cons _ more ih =>
    simp only [plainGapUpTo]
    split
    · next hblank =>
      split
      · refine (skipToLineEnd_reads c _ _).bind fun c' hc' => ?_
        exact (ih c').mono fun _ h => hc'.trans h
      · have hone : c.Ahead 1 := ahead_one (isInline_of_isBlank hblank)
        exact (ih _).mono fun _ h => (blanks_reads hone).trans h
    · split
      · exact (ih _).mono fun _ h => (newline_reads c).trans h
      · exact .ok (.refl c)

theorem plainUpTo_reads (m : Mark) (inFlow : Bool) (indent : Int) (bound : List Char)
    (c : Cursor) : Ensures (plainUpTo m inFlow indent bound c) c.ReadsTo := by
  induction bound generalizing c with
  | nil => exact .ok (.refl c)
  | cons _ more ih =>
    have hword := plainWord_reads inFlow c
    simp only [plainUpTo]
    split
    · exact .ok (.refl c)
    · split
      · exact .error _
      · split
        · exact .ok hword
        · refine (plainGapUpTo_reads m indent _ _).bind fun c' hc' => ?_
          split
          · exact .ok (hword.trans hc')
          · exact (ih c').mono fun _ h => (hword.trans hc').trans h

theorem plain_reads (inFlow : Bool) (indent : Int) (c : Cursor) :
    Ensures (c.plain inFlow indent) c.ReadsTo := by
  unfold plain
  split
  · exact .error _
  · exact plainUpTo_reads c.mark inFlow indent _ c

/-! ### Block scalars -/

theorem isInline_of_isSign {d : Char} (h : (d = '+' || d = '-') = true) : isInline d = true :=
  isInline_of (fun d => d = '+' || d = '-') rfl rfl h

theorem blockDigit_reads (m : Mark) (c : Cursor) :
    Ensures (blockDigit m c) fun r => c.ReadsTo r.2 := by
  unfold blockDigit
  split
  · exact .ok (.refl c)
  · next hdigit =>
    split
    · exact .error _
    · exact .ok (skip_reads (ahead_one (isInline_of Char.isDigit rfl rfl (by simpa using hdigit))))

theorem blockHeader_reads (m : Mark) (c : Cursor) :
    Ensures (blockHeader m c) fun r => c.ReadsTo r.2 := by
  -- What follows the sign and the digit.
  have hend : ∀ x : Nat × Cursor, c.ReadsTo x.2 →
      Ensures (do
        let c ← x.2.skipToLineEnd .blockHeaderNotEnded (some m)
        let c := (c.fetch 2).newline.fetch 1
        if c.peek = '\t' then .error ⟨.blockStartsWithTab, m⟩ else .ok (x.1, c))
        fun r => c.ReadsTo r.2 := by
    intro x hx
    refine (skipToLineEnd_reads x.2 _ _).bind fun c' hc' => ?_
    have hline := (fetch_reads c' 2).trans (newline_reads _)
    dsimp only
    split
    · exact .error _
    · exact .ok ((hx.trans hc').trans (hline.trans (fetch_reads _ 1)))
  simp only [blockHeader]
  split
  · next hsign =>
    have hone := skip_reads (ahead_one (isInline_of_isSign hsign))
    exact (blockDigit_reads m _).bind fun r hr => hend r (hone.trans hr)
  · refine (blockDigit_reads m c).bind fun r hr => ?_
    refine Ensures.bind (Ensures.ok ?_) hend
    show c.ReadsTo (if _ then _ else _)
    split
    · next hsign =>
      have hsign := (Bool.and_eq_true_iff.mp hsign).2
      exact hr.trans (skip_reads (ahead_one (isInline_of_isSign hsign)))
    · exact hr

theorem spacesTo_reads (indent limit : Nat) (c : Cursor) : c.ReadsTo (c.spacesTo indent limit) :=
  blanks_reads ((Text.StaysOnLine.takeWhile c.rest (p := (· = ' ')) rfl).mono (by omega))

theorem deepIndentUpTo_reads (indent : Nat) (bound : List Char) (c : Cursor) :
    c.ReadsTo (deepIndentUpTo indent bound c) := by
  induction bound generalizing c with
  | nil => exact .refl c
  | cons _ more ih =>
    have hportion := (fetch_reads c 16).trans (spacesTo_reads indent (c.fetch 16).lookahead _)
    simp only [deepIndentUpTo]
    split
    · exact hportion
    · exact hportion.trans (ih _)

theorem lineIndent_reads (indent : Nat) (c : Cursor) : c.ReadsTo (c.lineIndent indent) := by
  unfold lineIndent
  split
  · exact (fetch_reads c 16).trans (spacesTo_reads _ _ _)
  · exact (deepIndentUpTo_reads indent _ c).trans (fetch_reads _ 2)

theorem blockIndentUpTo_reads (indent : Nat) (bound : List Char) (c : Cursor) :
    c.ReadsTo (blockIndentUpTo indent bound c) := by
  induction bound generalizing c with
  | nil => exact .refl c
  | cons _ more ih =>
    have hindent := lineIndent_reads indent c
    simp only [blockIndentUpTo]
    split
    · exact (hindent.trans (newline_reads _)).trans (ih _)
    · exact hindent

theorem blockIndent_reads (indent : Nat) (c : Cursor) : c.ReadsTo (c.blockIndent indent) :=
  blockIndentUpTo_reads indent _ c

theorem detectIndentUpTo_reads (bound : List Char) (deepest : Nat) (c : Cursor) :
    c.ReadsTo (detectIndentUpTo bound deepest c).2 := by
  induction bound generalizing deepest c with
  | nil => exact .refl c
  | cons _ more ih =>
    have hspaces := blanks_reads (Text.StaysOnLine.takeWhile c.rest (p := (· = ' ')) rfl)
    have hindent := hspaces.trans (fetch_reads _ 1)
    simp only [detectIndentUpTo]
    split
    · exact ((hindent.trans (fetch_reads _ 2)).trans (newline_reads _)).trans (ih _ _)
    · exact hindent

theorem blockLinesUpTo_reads (indent : Nat) (bound : List Char) (c : Cursor) :
    c.ReadsTo (blockLinesUpTo indent bound c) := by
  induction bound generalizing c with
  | nil => exact .refl c
  | cons _ more ih =>
    have hfetch : c.ReadsTo (if indent = 0 then c.fetch 4 else c) := by
      split
      · exact fetch_reads c 4
      · exact .refl c
    simp only [blockLinesUpTo]
    generalize (if indent = 0 then c.fetch 4 else c) = c' at hfetch
    have hline := hfetch.trans (skipLine_reads c')
    split
    · split
      · exact hfetch
      · split
        · exact hline
        · have hnext := (fetch_reads c'.skipLine 2).trans (newline_reads _)
          exact ((hline.trans hnext).trans (blockIndent_reads indent _)).trans (ih _)
    · exact .refl c

/-- The mark of the token lies somewhere in what is read. -/
theorem block_reads (outer : Int) {c : Cursor} (h : c.Ahead 1) :
    Ensures (c.block outer) fun r =>
      c.ReadsTo r.2 ∧ c.line ≤ r.1.line ∧ r.1.line ≤ r.2.line := by
  refine (blockHeader_reads c.mark (c.skip 1)).bind fun r hr => ?_
  have hheader := (skip_reads h).trans hr
  dsimp only
  generalize hgiven : (if r.1 = 0 then 0 else _ : Nat) = given
  -- The indentation is either found or given; reading it ends at `c'`.
  have hindent : ∀ x : Nat × Cursor, r.2.ReadsTo x.2 →
      Ensures (if x.2.atEnd = true then .ok (c.mark, x.2)
        else if (x.2.column < x.1 && decide (outer < x.2.column)) = true then
          x.2.fail .blockLineIndentation
        else .ok (x.2.mark, blockLinesUpTo x.1 (nul :: x.2.rest) x.2) :
          Except ScanError (Mark × Cursor))
        fun r => c.ReadsTo r.2 ∧ c.line ≤ r.1.line ∧ r.1.line ≤ r.2.line := by
    intro x hx
    have hx := hheader.trans hx
    split
    · exact .ok ⟨hx, Nat.le_refl _, hx.line_le⟩
    · split
      · exact .error _
      · have hlines := blockLinesUpTo_reads x.1 (nul :: x.2.rest) x.2
        exact .ok ⟨hx.trans hlines, hx.line_le, hlines.line_le⟩
  by_cases hzero : given = 0
  · rw [if_pos hzero]
    exact hindent _ (detectIndentUpTo_reads _ _ _)
  · rw [if_neg hzero]
    exact hindent _ (blockIndent_reads _ _)

/-! ### Escaped octets and addresses -/

theorem octet_reads (m : Mark) (c : Cursor) : Ensures (octet m c) fun r => c.ReadsTo r.2 := by
  unfold octet
  split
  · next h =>
    simp only [Bool.and_eq_true, decide_eq_true_eq] at h
    obtain ⟨⟨hpercent, hfirst⟩, hsecond⟩ := h
    have hone : c.Ahead 1 := ahead_one (by rw [hpercent]; rfl)
    have htwo := hone.succ (isInline_of isHexDigit (by decide) (by decide) hfirst)
    exact .ok (skip_reads (htwo.succ (isInline_of isHexDigit (by decide) (by decide) hsecond)))
  · exact .error _

theorem trailingOctets_reads (m : Mark) (n code : Nat) (c : Cursor) :
    Ensures (trailingOctets m n code c) fun r => c.ReadsTo r.2 := by
  induction n generalizing code c with
  | zero => exact .ok (.refl c)
  | succ n ih =>
    refine (octet_reads m c).bind ?_
    rintro ⟨o, c'⟩ hr
    show Ensures (if _ then _ else _) _
    split
    · exact (ih _ _).mono fun _ h => hr.trans h
    · exact .error _

theorem escapedChar_reads (m : Mark) (c : Cursor) : Ensures (escapedChar m c) c.ReadsTo := by
  refine (octet_reads m c).bind ?_
  rintro ⟨o, c'⟩ hr
  dsimp only
  split
  · exact .error _
  · next n _ =>
    refine (trailingOctets_reads m n o c').bind ?_
    rintro ⟨code, c''⟩ hr'
    show Ensures (if _ then _ else _) _
    split
    · exact .error _
    · exact .ok (hr.trans hr')

section Address

variable {p : Char → Bool} (hnul : p nul = false) (hfeed : p '\n' = false)
include hnul hfeed

theorem uriUpTo_reads (m : Mark) (bound : List Char) (c : Cursor) :
    Ensures (uriUpTo m p bound c) c.ReadsTo := by
  induction bound generalizing c with
  | nil => exact .ok (.refl c)
  | cons _ more ih =>
    simp only [uriUpTo]
    split
    · next hp =>
      have hone : c.Ahead 1 := ahead_one (isInline_of p hnul hfeed hp)
      split
      · exact (escapedChar_reads m c).bind fun c' hc' => (ih c').mono fun _ h => hc'.trans h
      · exact (ih _).mono fun _ h => (skip_reads hone).trans h
    · exact .ok (.refl c)

theorem uri_reads (m : Mark) (c : Cursor) : Ensures (uri m p c) c.ReadsTo :=
  uriUpTo_reads hnul hfeed m c.rest c

end Address

/-! ### Tags -/

theorem tagHandle_reads (m : Mark) (inDirective : Bool) (c : Cursor) :
    Ensures (tagHandle m inDirective c) fun r => c.ReadsTo r.2 := by
  simp only [tagHandle]
  split
  · exact .error _
  · next hmark =>
    have hone : c.Ahead 1 := ahead_one (by rw [Decidable.not_not.mp hmark]; rfl)
    have hnamed := (skip_reads hone).trans (skipWhile_reads (c.skip 1) (p := isWordChar) rfl)
    split
    · next hclosed => exact .ok (hnamed.trans (skip_reads (ahead_one (by rw [hclosed]; rfl))))
    · split
      · exact .error _
      · exact .ok hnamed

theorem tagReplacement_reads (m : Mark) (c : Cursor) :
    Ensures (tagReplacement m c) c.ReadsTo := by
  have hrest : ∀ c', c.ReadsTo c' → Ensures (uri m isUriChar c') c.ReadsTo := fun c' hc' =>
    (uri_reads (by decide) (by decide) m c').mono fun _ h => hc'.trans h
  simp only [tagReplacement]
  split
  · next hmark => exact (Ensures.ok (skip_reads (ahead_one (by rw [hmark]; rfl)))).bind hrest
  · split
    · exact .error _
    · next htag =>
      split
      · exact (escapedChar_reads m c).bind hrest
      · have htag : isTagChar c.peek = true := by simpa using htag
        exact hrest _ (skip_reads (ahead_one (isInline_of isTagChar (by decide) (by decide) htag)))

theorem verbatimTag_reads (m : Mark) {c : Cursor} (h : c.Ahead 2) :
    Ensures (verbatimTag m c) c.ReadsTo := by
  refine (uri_reads (by decide) (by decide) m (c.skip 2)).bind fun c' hc' => ?_
  split
  · next hclosed =>
    have hclose : c'.Ahead 1 := ahead_one (by rw [hclosed]; rfl)
    exact .ok (((skip_reads h).trans hc').trans (skip_reads hclose))
  · exact .error _

theorem shortTag_reads (m : Mark) (c : Cursor) : Ensures (shortTag m c) c.ReadsTo := by
  refine (tagHandle_reads m false c).bind fun r hr => ?_
  refine (uri_reads (by decide) (by decide) m r.2).bind fun c' hc' => ?_
  split
  · exact .error _
  · exact .ok (hr.trans hc')

theorem tag_reads (inFlow : Bool) {c : Cursor} (h : c.Ahead 1) :
    Ensures (c.tag inFlow) c.ReadsTo := by
  have hend : ∀ c', c.ReadsTo c' →
      Ensures (if (isSeparator c'.peek || (inFlow && isFlowIndicator c'.peek)) = true then .ok c'
        else failAt c.mark .tagNotSeparated) c.ReadsTo := by
    intro c' hc'
    split
    · exact .ok hc'
    · exact .error _
  simp only [tag]
  split
  · next hangle => exact (verbatimTag_reads c.mark (h.succ (by rw [hangle]; rfl))).bind hend
  · exact (shortTag_reads c.mark c).bind hend

/-! ### Directives and anchors -/

theorem versionNumber_reads (m : Mark) (c : Cursor) : Ensures (versionNumber m c) c.ReadsTo := by
  unfold versionNumber
  split
  · exact .error _
  · split
    · exact .error _
    · exact .ok (skip_reads (Text.StaysOnLine.takeWhile c.rest rfl))

theorem gap_reads (c : Cursor) : c.ReadsTo c.gap :=
  blanks_reads (Text.StaysOnLine.takeWhile c.rest (p := isBlank) rfl)

theorem versionDirective_reads (m : Mark) (c : Cursor) :
    Ensures (versionDirective m c) c.ReadsTo := by
  refine (versionNumber_reads m c.gap).bind fun c' hc' => ?_
  have hmajor := (gap_reads c).trans hc'
  split
  · next hdot =>
    have hone : c'.Ahead 1 := ahead_one (by rw [hdot]; rfl)
    exact (versionNumber_reads m _).mono fun _ h => (hmajor.trans (skip_reads hone)).trans h
  · exact .error _

theorem tagDirective_reads (m : Mark) (c : Cursor) : Ensures (tagDirective m c) c.ReadsTo := by
  refine (tagHandle_reads m true c.gap).bind fun r hr => ?_
  refine (tagReplacement_reads m r.2.gap).bind fun c' hc' => ?_
  split
  · exact .ok ((((gap_reads c).trans hr).trans (gap_reads _)).trans hc')
  · exact .error _

theorem directive_reads {c : Cursor} (h : c.Ahead 1) : Ensures c.directive c.ReadsTo := by
  have hend : ∀ c', c.ReadsTo c' →
      Ensures (do
        let c ← c'.skipToLineEnd .directiveNotEnded (some c.mark)
        .ok c.newline) c.ReadsTo := fun c' hc' =>
    (skipToLineEnd_reads c' _ _).bind fun c'' hc'' =>
      .ok ((hc'.trans hc'').trans (newline_reads c''))
  have hname := (skip_reads h).trans
    (skip_reads (Text.StaysOnLine.takeWhile (c.skip 1).rest (p := isWordChar) rfl))
  simp only [directive]
  split
  · exact .error _
  · split
    · exact .error _
    · split
      · exact (versionDirective_reads c.mark _).bind fun c' hc' => hend c' (hname.trans hc')
      · split
        · exact (tagDirective_reads c.mark _).bind fun c' hc' => hend c' (hname.trans hc')
        · exact (Ensures.ok (hname.trans (skipWhile_reads _ rfl))).bind hend

theorem anchor_reads {c : Cursor} (h : c.Ahead 1) : Ensures c.anchor c.ReadsTo := by
  simp only [anchor]
  split
  · exact .error _
  · have hname : (c.skip 1).Ahead _ := Text.StaysOnLine.takeWhile _ (p := isAnchorChar) rfl
    rw [Nat.add_comm]
    exact .ok (skip_reads (h.add hname))

end DocMark.Yaml.Cursor
