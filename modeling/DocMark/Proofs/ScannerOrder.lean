import DocMark.Proofs.TokenQueue

/-!
# The order of the scanner's tokens

Every step of the scanner keeps its queue in line order, whatever it inserts.  A key that opens a
block lies on the line of its colon, for a candidate outside brackets is given up when its line is
left (`prepare_inOrder`); and inside brackets no block opens.  So by induction over the run the
marks of all tokens are in line order, up to the line where the text ends for the scanner.

Main statements: `step_inOrder` for one step and `scan_ordered` for the whole text.  The latter
splits what `scan` gives into the tokens found on the way, the blocks that end with the text and the
end of the stream.
-/

namespace DocMark.Yaml

variable {text : List Char} {l : Nat} {s : Scanner}

namespace Scanner

/-- The open candidates, from the inside out. -/
def openKeys (s : Scanner) : List Candidate := s.keys.filter (·.possible)

/-- The queue is in line order up to the line `l`. -/
def Ordered (text : List Char) (l : Nat) (s : Scanner) : Prop :=
  QueueOrdered text l s.cursor s.found s.count s.openKeys

/-- The queue is in line order up to the line of the cursor. -/
def InOrder (text : List Char) (s : Scanner) : Prop := s.Ordered text s.cursor.line

/-- Entries have their dashes, so all tokens are sound. -/
theorem Ordered.sound (h : s.Ordered text l) : ∀ t ∈ s.found, t.Sound text := by
  obtain ⟨dashes, hentries, -, -⟩ := h.entries
  obtain ⟨hbehind, -⟩ := (List.forall₂_and_left _ dashes).mp
    (hentries.imp fun t d ht => ⟨ht.behindDash, ht⟩)
  intro t ht
  exact ⟨h.noEnd t ht, fun hkind => hbehind t (List.mem_filter.mpr ⟨ht, by simpa using hkind⟩)⟩

theorem Ordered.inOrder (h : s.Ordered text l) : s.InOrder text :=
  QueueOrdered.weaken h h.le_line (Nat.le_refl _)

theorem Ordered.move (h : s.Ordered text l) {c : Cursor} (hc : s.cursor.ReadsTo c) :
    (s.move c).Ordered text l :=
  QueueOrdered.move h hc

theorem Ordered.skip (h : s.Ordered text l) {n : Nat} (hahead : s.cursor.Ahead n) :
    (s.skip n).Ordered text l :=
  h.move (Cursor.skip_reads hahead)

theorem Ordered.push (h : s.Ordered text l) {kind : TokenKind} {m : Mark} (hm : m.line = l)
    (hkind : startsAtMark kind = true) : (s.push kind m).Ordered text l :=
  QueueOrdered.push h hm hkind

/-! ### Candidates -/

/-- Gives up the candidate. -/
def dropKey (s : Scanner) : Scanner := { s with key := { s.key with possible := false } }

theorem outerKeys_sublist (s : Scanner) :
    (s.outerKeys.filter (·.possible)).Sublist s.openKeys :=
  (List.sublist_cons_self s.key s.outerKeys).filter _

theorem Ordered.dropKey (h : s.Ordered text l) : s.dropKey.Ordered text l :=
  QueueOrdered.giveUp h s.outerKeys_sublist

theorem removeKey_ensures (s : Scanner) : Ensures s.removeKey (· = s.dropKey) := by
  unfold removeKey
  split
  · exact .error _
  · exact .ok rfl

/-- An open candidate outside brackets lies on the line of the cursor. -/
def KeyIsFresh (s : Scanner) : Prop :=
  s.key.possible = true → s.inFlow = false → s.cursor.line ≤ s.key.mark.line

theorem dropStaleKey_ensures (s : Scanner) :
    Ensures s.dropStaleKey fun s' => (s' = s ∨ s' = s.dropKey) ∧ s'.KeyIsFresh := by
  unfold dropStaleKey
  split
  · split
    · exact .error _
    · exact .ok ⟨.inr rfl, nofun⟩
  · next hstale =>
    refine .ok ⟨.inl rfl, fun hpossible hflow => ?_⟩
    by_cases hline : s.key.mark.line < s.cursor.line
    · exact absurd (by simp [keyIsStale, hpossible, hflow, hline]) hstale
    · exact Nat.le_of_not_lt hline

@[simp] theorem cursor_saveKey (s : Scanner) : s.saveKey.cursor = s.cursor := by
  unfold saveKey
  split <;> rfl

theorem Ordered.saveKey (h : s.Ordered text l) (hline : s.cursor.line = l) :
    s.saveKey.Ordered text l := by
  unfold Scanner.saveKey
  split
  · exact (QueueOrdered.giveUp h s.outerKeys_sublist).openKey rfl hline
  · exact h

theorem Ordered.startNode (h : s.Ordered text l) (hline : s.cursor.line = l) :
    s.startNode.Ordered text l :=
  h.saveKey hline

@[simp] theorem cursor_startNode (s : Scanner) : s.startNode.cursor = s.cursor := s.cursor_saveKey

/-! ### Indentation -/

@[simp] theorem cursor_indentHalf (s : Scanner) : s.indentHalf.cursor = s.cursor := by
  unfold indentHalf
  split <;> rfl

theorem Ordered.indentHalf (h : s.Ordered text l) : s.indentHalf.Ordered text l := by
  unfold Scanner.indentHalf
  split <;> exact h

theorem Ordered.leaveHalfIndent (h : s.Ordered text l) (column : Int) :
    (s.leaveHalfIndent column).Ordered text l := by
  unfold Scanner.leaveHalfIndent
  split
  · split <;> exact h
  · exact h

@[simp] theorem cursor_leaveHalfIndent (s : Scanner) (column : Int) :
    (s.leaveHalfIndent column).cursor = s.cursor := by
  unfold leaveHalfIndent
  split
  · split <;> rfl
  · rfl

@[simp] theorem openKeys_leaveHalfIndent (s : Scanner) (column : Int) :
    (s.leaveHalfIndent column).openKeys = s.openKeys := by
  unfold leaveHalfIndent
  split
  · split <;> rfl
  · rfl

@[simp] theorem cursor_openBlock (s : Scanner) (column : Nat) (number? : Option Nat)
    (kind : TokenKind) (m : Mark) : (s.openBlock column number? kind m).cursor = s.cursor := by
  simp only [openBlock]
  split
  · rfl
  · split
    · split <;> exact cursor_leaveHalfIndent s column
    · exact cursor_leaveHalfIndent s column

theorem Ordered.openBlock (h : s.Ordered text l) (column : Nat) (kind : TokenKind) {m : Mark}
    (hm : m.line = l) (hkind : startsAtMark kind = true) :
    (s.openBlock column none kind m).Ordered text l := by
  have hleft := h.leaveHalfIndent column
  simp only [Scanner.openBlock]
  split
  · exact h
  · split
    · exact QueueOrdered.push hleft hm hkind
    · exact hleft

theorem Ordered.insertAt (h : s.Ordered text l) {k : Candidate} {keys : List Candidate}
    (hkeys : s.openKeys = k :: keys) (kind : TokenKind) {m : Mark} (hm : m.line = k.mark.line)
    (hkind : startsAtMark kind = true) : (s.insertAt k.number kind m).Ordered text l := by
  unfold Ordered at h ⊢
  rw [show (s.insertAt k.number kind m).openKeys = k :: keys from hkeys]
  rw [hkeys] at h
  exact h.insert hm hkind

/-- Inside brackets no block opens, so only outside of them the mark has to be that of the key. -/
theorem Ordered.openBlockAt (h : s.Ordered text l) {k : Candidate} {keys : List Candidate}
    (hkeys : s.openKeys = k :: keys) (column : Nat) {m : Mark}
    (hm : s.inFlow = false → m.line = k.mark.line) :
    (s.openBlock column (some k.number) .blockMappingStart m).Ordered text l := by
  have hleft := h.leaveHalfIndent column
  simp only [Scanner.openBlock]
  split
  · exact h
  · next hflow =>
    split
    · exact Ordered.insertAt hleft ((openKeys_leaveHalfIndent s column).trans hkeys) _
        (hm (by simpa using hflow)) rfl
    · exact hleft

/-- The blocks that end with a line all end at the mark of the cursor. -/
theorem closeBlocks_eq (s : Scanner) (column : Int) :
    ∃ ends, (s.closeBlocks column).found = List.replicate ends ⟨.blockEnd, s.mark⟩ ++ s.found ∧
      (s.closeBlocks column).count = s.count + ends ∧
      (s.closeBlocks column).cursor = s.cursor ∧ (s.closeBlocks column).key = s.key ∧
      (s.closeBlocks column).outerKeys = s.outerKeys := by
  simp only [closeBlocks]
  split
  · exact ⟨0, rfl, rfl, rfl, rfl, rfl⟩
  · exact ⟨_, rfl, rfl, rfl, rfl, rfl⟩

theorem Ordered.closeBlocks (h : s.Ordered text l) (hline : s.cursor.line = l) (column : Int) :
    (s.closeBlocks column).Ordered text l := by
  obtain ⟨ends, hfound, hcount, hcursor, hkey, houter⟩ := s.closeBlocks_eq column
  unfold Ordered openKeys keys
  rw [hfound, hcount, hcursor, hkey, houter]
  exact QueueOrdered.pushEnds h ends hline

/-! ### Between tokens -/

/-- The cursor of `s` has moved on in its line, and nothing else has changed. -/
def MovedOnLine (s s' : Scanner) : Prop :=
  ∃ c, s' = s.move c ∧ s.cursor.ReadsTo c ∧ c.line = s.cursor.line

/-- The cursor moves over blanks and a comment, and over nothing else. -/
theorem skipBlanks_reads (s : Scanner) :
    Ensures s.skipBlanks fun r => ∃ c, r.2 = s.move c ∧
      (s.cursor.ReadsTo c ∧ c.line = s.cursor.line) ∧
      s.cursor.rest = lineGap s.cursor.rest ++ c.rest := by
  refine ((Cursor.skipBlanks_reads s.cursor).and (Cursor.lineGap_skipBlanks s.cursor)).bind
    fun r hr => ?_
  exact .ok ⟨r.2, rfl, hr⟩

theorem skipBlanks_ensures (s : Scanner) :
    Ensures s.skipBlanks fun r => s.MovedOnLine r.2 :=
  (skipBlanks_reads s).mono fun _ ⟨c, hc, hmoved, _⟩ => ⟨c, hc, hmoved⟩

theorem moveBy_ensures (s : Scanner) {f : Cursor → Except ScanError Cursor}
    (hf : Ensures (f s.cursor) s.cursor.ReadsTo) (h : s.Ordered text l) :
    Ensures (s.moveBy f) (Ordered text l) :=
  hf.bind fun _ hc => .ok (h.move hc)

theorem skipToTokenUpTo_ensures (bound : List Char) (h : s.Ordered text l) :
    Ensures (skipToTokenUpTo bound s) (Ordered text l) := by
  induction bound generalizing s with
  | nil => exact .ok h
  | cons _ more ih =>
    simp only [skipToTokenUpTo]
    split
    · exact (Cursor.skipToLineEnd_reads s.cursor _ _).bind fun c hc => ih (h.move hc)
    · split
      · next hblank =>
        exact ih (h.move (Cursor.blanks_reads (Cursor.ahead_one (isInline_of_isBlank hblank))))
      · split
        · exact ih (h.move (Cursor.newline_reads s.cursor))
        · split
          · exact ih (h.move (Cursor.skipWhile_reads s.cursor rfl))
          · exact .ok h

theorem skipToToken_ensures (h : s.Ordered text l) : Ensures s.skipToToken (Ordered text l) :=
  skipToTokenUpTo_ensures s.cursor.rest h

/-! ### Documents, directives, tags and anchors -/

theorem endBlocks_ensures (h : s.InOrder text) :
    Ensures s.endBlocks fun s' => s'.Ordered text s.cursor.line ∧ s'.cursor = s.cursor := by
  have hclose := Ordered.closeBlocks h rfl (-1)
  obtain ⟨_, -, -, hcursor, -, -⟩ := s.closeBlocks_eq (-1)
  refine (removeKey_ensures _).bind ?_
  rintro _ rfl
  exact .ok ⟨hclose.dropKey, hcursor⟩

theorem document_inOrder {kind : TokenKind} (hkind : startsAtMark kind = true)
    (h : s.InOrder text) (hahead : s.cursor.Ahead 3) :
    Ensures (s.document kind) (InOrder text) := by
  refine (endBlocks_ensures h).bind ?_
  rintro s' ⟨h', hcursor⟩
  rw [← hcursor] at hahead
  have hline : s'.mark.line = s.cursor.line := by rw [mark, hcursor, Cursor.line]
  exact .ok ((h'.skip hahead).push hline hkind).inOrder

theorem documentEnd_inOrder (h : s.InOrder text) (hahead : s.cursor.Ahead 3) :
    Ensures s.documentEnd (InOrder text) := by
  refine (document_inOrder rfl h hahead).bind fun s' h' => ?_
  exact (moveBy_ensures s' (Cursor.skipToLineEnd_reads _ _ _) h').mono fun _ => Ordered.inOrder

theorem directive_inOrder (h : s.InOrder text) (hahead : s.cursor.Ahead 1) :
    Ensures s.directive (InOrder text) := by
  refine (endBlocks_ensures h).bind ?_
  rintro s' ⟨h', hcursor⟩
  rw [← hcursor] at hahead
  have hline : s'.mark.line = s.cursor.line := by rw [mark, hcursor, Cursor.line]
  refine (moveBy_ensures s' (Cursor.directive_reads hahead) h').bind fun s'' h'' => ?_
  exact .ok (h''.push hline rfl).inOrder

theorem tag_inOrder (h : s.InOrder text) (hahead : s.cursor.Ahead 1) :
    Ensures s.tag (InOrder text) := by
  have hnode := Ordered.startNode h rfl
  rw [← s.cursor_startNode] at hahead
  refine (moveBy_ensures _ (Cursor.tag_reads _ hahead) hnode).bind fun s' h' => ?_
  exact .ok (h'.push rfl rfl).inOrder

theorem anchor_inOrder {kind : TokenKind} (hkind : startsAtMark kind = true)
    (h : s.InOrder text) (hahead : s.cursor.Ahead 1) :
    Ensures (s.anchor kind) (InOrder text) := by
  have hnode := Ordered.startNode h rfl
  rw [← s.cursor_startNode] at hahead
  refine (moveBy_ensures _ (Cursor.anchor_reads hahead) hnode).bind fun s' h' => ?_
  exact .ok (h'.push rfl hkind).inOrder

/-! ### Flow collections -/

theorem flowStart_inOrder {kind : TokenKind} (hkind : startsAtMark kind = true)
    (h : s.InOrder text) (hahead : s.cursor.Ahead 1) :
    Ensures (s.flowStart kind) (InOrder text) := by
  have hkey := (Ordered.saveKey h rfl).indentHalf
  have hcursor : s.saveKey.indentHalf.cursor = s.cursor := by simp
  simp only [flowStart]
  generalize s.saveKey.indentHalf = s' at hkey hcursor
  have hlevel : Ordered text s.cursor.line
      { s' with
        outerKeys := s'.key :: s'.outerKeys
        key := {}
        keyAllowed := true
        inFlowMapping := s'.inFlowMapping || kind == TokenKind.flowMappingStart } := hkey
  rw [← hcursor] at hahead
  have hline : s'.mark.line = s.cursor.line := by rw [mark, hcursor, Cursor.line]
  split
  · exact .error _
  · refine (skipBlanks_ensures _).bind ?_
    rintro ⟨_, _⟩ ⟨c, rfl, hc, -⟩
    exact .ok (((hlevel.skip hahead).move hc).push hline hkind).inOrder

@[simp] theorem cursor_endSinglePair (s : Scanner) : s.endSinglePair.cursor = s.cursor := by
  unfold endSinglePair
  split <;> rfl

theorem Ordered.endSinglePair (h : s.Ordered text l) (hline : s.cursor.line = l) :
    s.endSinglePair.Ordered text l := by
  unfold Scanner.endSinglePair
  split
  · exact Ordered.push (s := { s with inSinglePair := false, inFlowMapping := false })
      h hline rfl
  · exact h

@[simp] theorem cursor_leaveFlow (s : Scanner) : s.leaveFlow.cursor = s.cursor := by
  unfold leaveFlow
  split <;> rfl

theorem Ordered.leaveFlow (h : s.Ordered text l) : s.leaveFlow.Ordered text l := by
  unfold Scanner.leaveFlow
  split
  · next k ks houter =>
    have hsub := s.outerKeys_sublist
    rw [houter] at hsub
    exact QueueOrdered.giveUp h hsub
  · exact h

/-- A closing bracket and a comma end a single pair first. -/
theorem pushFlow_inOrder {k : TokenKind} (hk : startsAtMark k = true)
    (h : s.Ordered text l) (hline : s.cursor.line = l) (hahead : s.cursor.Ahead 1) :
    Ensures (s.endSinglePair.skip 1).skipBlanks fun r =>
      (r.2.push k s.endSinglePair.mark).Ordered text l := by
  have hpair := h.endSinglePair hline
  rw [← s.cursor_endSinglePair] at hahead hline
  refine (skipBlanks_ensures _).mono ?_
  rintro ⟨_, _⟩ ⟨c, rfl, hc, -⟩
  exact ((hpair.skip hahead).move hc).push hline hk

theorem flowEnd_inOrder {kind : TokenKind} (hkind : startsAtMark kind = true)
    (h : s.InOrder text) (hahead : s.cursor.Ahead 1) :
    Ensures (s.flowEnd kind) (InOrder text) := by
  refine (removeKey_ensures s).bind ?_
  rintro _ rfl
  have hcursor : s.dropKey.leaveFlow.cursor = s.cursor := cursor_leaveFlow _
  have hleave : Ordered text s.cursor.line { s.dropKey.leaveFlow with keyAllowed := false } :=
    (Ordered.dropKey h).leaveFlow
  refine (pushFlow_inOrder hkind hleave (by rw [hcursor]) (by rwa [hcursor])).bind fun r hr => ?_
  refine .ok (Ordered.inOrder (l := s.cursor.line) ?_)
  dsimp only
  split <;> exact hr

theorem flowEntry_inOrder (h : s.InOrder text) (hahead : s.cursor.Ahead 1) :
    Ensures s.flowEntry (InOrder text) := by
  refine (removeKey_ensures s).bind ?_
  rintro _ rfl
  have hdrop : s.dropKey.Ordered text s.cursor.line := Ordered.dropKey h
  have hpair := pushFlow_inOrder (s := { s.dropKey with keyAllowed := true })
    (k := .flowEntry) rfl hdrop rfl hahead
  exact hpair.bind fun r hr => .ok hr.inOrder

/-! ### Block collections -/

theorem entriesOf_openBlock (s : Scanner) (column : Nat) {kind : TokenKind} {m : Mark}
    (hkind : kind ≠ .blockEntry) :
    entriesOf (s.openBlock column none kind m).found = entriesOf s.found := by
  have hleft : (s.leaveHalfIndent column).found = s.found := by
    unfold leaveHalfIndent
    split
    · split <;> rfl
    · rfl
  simp only [openBlock]
  split
  · rfl
  · split
    · rw [← hleft]
      exact entriesOf_cons_of_ne hkind _
    · rw [hleft]

@[simp] theorem found_indentHalf (s : Scanner) : s.indentHalf.found = s.found := by
  unfold indentHalf
  split <;> rfl

theorem blockEntry_inOrder (h : s.InOrder text) (hstands : s.Stands text)
    (hdash : s.cursor.peek = '-') (hsep : isSeparator (s.cursor.peek 1) = true) :
    Ensures s.blockEntry (InOrder text) := by
  have hahead : s.cursor.Ahead 1 := Cursor.ahead_one (by rw [hdash]; rfl)
  have hopen := (Ordered.skip h hahead).openBlock s.mark.column .blockSequenceStart
    (m := s.mark) rfl rfl
  have hcursor : ((s.skip 1).openBlock s.mark.column none .blockSequenceStart s.mark).cursor =
    s.cursor.skip 1 := cursor_openBlock ..
  -- The entries before the dash; opening a block adds none.
  have hbefore : EntriesUpTo text (s.cursor.offset text)
      ((s.skip 1).openBlock s.mark.column none .blockSequenceStart s.mark).found :=
    h.entries.congr (entriesOf_openBlock (s.skip 1) s.mark.column nofun)
  simp only [blockEntry]
  split
  · exact .error _
  · split
    · exact .error _
    · split
      · exact .error _
      · generalize (s.skip 1).openBlock _ _ _ _ = s' at hopen hcursor hbefore
        refine (skipBlanks_reads s').bind ?_
        rintro ⟨_, _⟩ ⟨c, rfl, ⟨hc, hline⟩, hgap⟩
        have hmove := hopen.move hc
        rw [hcursor] at hc hline hgap
        obtain ⟨hentry, hoffset⟩ :=
          EntryAt.of_skipBlanks h.reads ⟨s, hstands, rfl⟩ hdash hsep hc hgap
        -- No matter whether the block is a half one.
        have hend : ∀ s'' : Scanner, s''.Ordered text s.cursor.line → s''.cursor = c →
            s''.found = s'.found → Ensures (do
              let s'' ← s''.removeKey
              .ok ({ s'' with keyAllowed := true }.push .blockEntry s''.mark)) (InOrder text) := by
          intro s'' h'' hcursor'' hfound
          refine (removeKey_ensures s'').bind ?_
          rintro _ rfl
          have hmark : s''.dropKey.mark = c.mark := congrArg Cursor.mark hcursor''
          have hentries : EntriesUpTo text (s''.cursor.offset text)
              (⟨.blockEntry, s''.dropKey.mark⟩ :: s''.found) := by
            rw [hcursor'', hoffset, hmark, hfound]
            exact hbefore.cons rfl hentry
          have hline'' : s''.dropKey.mark.line = s.cursor.line := by rw [hmark]; exact hline
          have hpush := QueueOrdered.add (t := ⟨.blockEntry, s''.dropKey.mark⟩) h''.dropKey hline''
            nofun hentries
          exact .ok (Ordered.inOrder hpush)
        dsimp only
        split
        · exact .error _
        · split
          · exact hend _ hmove.indentHalf (cursor_indentHalf _) (found_indentHalf _)
          · exact hend _ hmove rfl rfl

theorem keyGapUpTo_ordered (bound : List Char) (found : Bool) (h : s.Ordered text l) :
    (keyGapUpTo bound found s).2.Ordered text l := by
  induction bound generalizing found s with
  | nil => exact h
  | cons _ more ih =>
    simp only [keyGapUpTo]
    split
    · next hspace =>
      exact ih _ (h.move (Cursor.blanks_reads (Cursor.ahead_one (by rw [hspace]; rfl))))
    · split
      · exact ih _ (h.move (Cursor.newline_reads s.cursor))
      · split
        · exact ih _ (h.move (Cursor.skipWhile_reads s.cursor rfl))
        · exact h

theorem explicitKey_inOrder (h : s.InOrder text) (hahead : s.cursor.Ahead 1) :
    Ensures s.explicitKey (InOrder text) := by
  have hend : ∀ s' : Scanner, s'.Ordered text s.cursor.line → s'.cursor = s.cursor →
      Ensures (do
        let s' ← s'.removeKey
        let s' := { s' with keyAllowed := !s'.inFlow }.skip 1
        let r := keyGapUpTo s'.cursor.rest false s'
        if !r.1 then r.2.fail .keyNotSeparated
        else if r.2.cursor.peek = '\t' then r.2.fail .tabAfterKey
        else .ok (r.2.push .key s.mark)) (InOrder text) := by
    intro s' h' hcursor
    rw [← hcursor] at hahead
    refine (removeKey_ensures s').bind ?_
    rintro _ rfl
    have hskip := h'.dropKey.skip hahead
    have hgap := keyGapUpTo_ordered (s := { s'.dropKey with keyAllowed := !s'.inFlow }.skip 1)
      (s'.cursor.skip 1).rest false hskip
    dsimp only
    split
    · exact .error _
    · split
      · exact .error _
      · exact .ok (hgap.push rfl rfl).inOrder
  simp only [explicitKey]
  split
  · exact Ensures.ok_bind (hend _ h rfl)
  · split
    · exact .error _
    · have hopen := Ordered.openBlock h s.mark.column .blockMappingStart (m := s.mark)
        rfl rfl
      exact Ensures.ok_bind (hend _ hopen (cursor_openBlock ..))

theorem valueTab_ensures (s : Scanner) : Ensures s.valueTab s.MovedOnLine := by
  unfold valueTab
  split
  · refine (skipBlanks_ensures s).bind fun r hr => ?_
    dsimp only
    split
    · exact .error _
    · exact .ok hr
  · exact .ok ⟨s.cursor, rfl, .refl _, rfl⟩

/-- Outside brackets a key lies on the line of its colon, so its block may start at the mark of the
colon.  Inside, the pair starts where the colon was read, and that is the line of the key as well.
-/
theorem insertKey_ensures (h : s.Ordered text l) (hline : s.cursor.line = l) {m : Mark}
    (hm : m.line = l) (hpossible : s.key.possible = true) (hfresh : s.KeyIsFresh) :
    Ensures (s.insertKey s.key m) (Ordered text l) := by
  have hkeys : s.openKeys = s.key :: s.outerKeys.filter (·.possible) := by
    simp [openKeys, keys, hpossible]
  have hle : s.key.mark.line ≤ l := h.keys_le s.key (by rw [hkeys]; exact List.mem_cons_self ..)
  have hkeyed := h.insertAt hkeys .key (m := s.key.mark) rfl rfl
  have hend : ∀ s' : Scanner, s'.Ordered text l → s'.openKeys = s.openKeys →
      s'.inFlow = s.inFlow → Ordered text l (dropKey (indentHalf
        (s'.openBlock s.key.mark.column (some s.key.number) .blockMappingStart m))) := by
    intro s' h' hkeys' hflow
    have hblock : s'.inFlow = false → m.line = s.key.mark.line := fun hout => by
      have := hfresh hpossible (hflow ▸ hout)
      omega
    exact (h'.openBlockAt (hkeys'.trans hkeys) s.key.mark.column hblock).indentHalf.dropKey
  -- The tokens go in from the last to the first: the key, and what opens before it.
  simp only [insertKey]
  split
  · exact Ensures.ok_bind (.ok (hend _ hkeyed rfl rfl))
  · split
    · exact .error _
    · next hmark =>
      have hpair : s.mark.line = s.key.mark.line := by
        show s.cursor.line = s.key.mark.line
        omega
      have hinsert := hkeyed.insertAt hkeys .flowMappingStart (m := s.mark) hpair rfl
      exact Ensures.ok_bind (.ok (hend _ hinsert rfl rfl))

theorem valueAlone_ensures (h : s.Ordered text l) (hline : s.cursor.line = l) {m : Mark}
    (hm : m.line = l) : Ensures (s.valueAlone m) (Ordered text l) := by
  have hpair : Ordered text l
      (if s.inSinglePair = true then s.push .flowMappingStart s.mark else s) := by
    split
    · exact h.push hline rfl
    · exact h
  simp only [valueAlone]
  generalize (if s.inSinglePair = true then s.push .flowMappingStart s.mark else s) = s' at hpair
  split
  · exact Ensures.ok_bind (.ok hpair.indentHalf)
  · split
    · exact .error _
    · exact Ensures.ok_bind (.ok (hpair.openBlock m.column _ hm rfl).indentHalf)

theorem value_inOrder (h : s.InOrder text) (hfresh : s.KeyIsFresh) (hahead : s.cursor.Ahead 1) :
    Ensures s.value (InOrder text) := by
  have hskip : Ordered text s.cursor.line
      ({ s with inSinglePair := s.inFlow && !s.inFlowMapping }.skip 1) := Ordered.skip h hahead
  simp only [value]
  refine (valueTab_ensures _).bind ?_
  rintro _ ⟨c, rfl, hc, hline⟩
  have hmove := hskip.move hc
  split
  · next hpossible =>
    have hkey := insertKey_ensures hmove hline (m := s.mark) rfl hpossible fun _ hflow => by
      show c.line ≤ s.key.mark.line
      rw [hline]
      exact hfresh hpossible hflow
    exact hkey.bind fun s' h' => .ok (h'.push rfl rfl).inOrder
  · exact (valueAlone_ensures hmove hline rfl).bind fun s' h' => .ok (h'.push rfl rfl).inOrder

/-! ### Scalars -/

theorem blockScalar_inOrder (h : s.InOrder text) (hahead : s.cursor.Ahead 1) :
    Ensures s.blockScalar (InOrder text) := by
  have hkey : Ordered text s.cursor.line
      ({ s.saveKey with keyAllowed := true }.leaveHalfIndents) := Ordered.saveKey h rfl
  have hcursor : ({ s.saveKey with keyAllowed := true }.leaveHalfIndents).cursor = s.cursor :=
    s.cursor_saveKey
  simp only [blockScalar]
  generalize { s.saveKey with keyAllowed := true }.leaveHalfIndents = s' at hkey hcursor
  rw [← hcursor] at hahead hkey
  refine (Cursor.block_reads s'.indent hahead).bind ?_
  rintro ⟨m, c⟩ ⟨hc, hlow, hhigh⟩
  have hmark : Ordered text m.line (s'.move c) := QueueOrdered.weaken (hkey.move hc) hlow hhigh
  exact .ok (hmark.push rfl rfl).inOrder

theorem quotedScalar_inOrder (q : Cursor.Quote) (h : s.InOrder text)
    (hahead : s.cursor.Ahead 1) : Ensures (s.quotedScalar q) (InOrder text) := by
  have hnode := Ordered.startNode h rfl
  rw [← s.cursor_startNode] at hahead
  refine (moveBy_ensures _ (Cursor.quoted_reads q _ hahead) hnode).bind fun s' h' => ?_
  split
  · exact .error _
  · exact (skipToToken_ensures h').bind fun s'' h'' =>
      .ok (Ordered.push (s := { s'' with adjacent := s''.cursor.index }) h'' rfl rfl).inOrder

theorem plainScalar_inOrder (h : s.InOrder text) : Ensures s.plainScalar (InOrder text) := by
  have hnode : Ordered text s.cursor.line s.startNode.leaveHalfIndents := Ordered.startNode h rfl
  refine (moveBy_ensures _ (Cursor.plain_reads _ _ _) hnode).bind fun s' h' => ?_
  exact .ok (Ordered.push (s := { s' with keyAllowed := s'.keyAllowed || s'.cursor.leading })
    h' rfl rfl).inOrder

/-! ### One step -/

theorem ahead_of_atMarker {c : Cursor} {d : Char} (hd : isInline d = true)
    (h : c.atMarker [d] = true) : c.Ahead 3 := by
  simp only [Cursor.atMarker, Bool.and_eq_true, decide_eq_true_eq, List.contains_cons,
    List.contains_nil, Bool.or_false, beq_iff_eq] at h
  obtain ⟨⟨⟨hfirst, hsecond⟩, hthird⟩, -⟩ := h
  rw [hfirst] at hsecond hthird
  have hone : c.Ahead 1 := Cursor.ahead_one (by rw [hfirst]; exact hd)
  exact (hone.succ (by rw [hsecond]; exact hd)).succ (by rw [hthird]; exact hd)

/-- Whatever the next character is, the step that it starts keeps the queue in order. -/
theorem step_inOrder {d : Char} (h : s.InOrder text) (hfresh : s.KeyIsFresh)
    (hstands : s.Stands text) (hd : s.cursor.peek = d) : Ensures (s.step d) (InOrder text) := by
  have hone (p : Char → Bool) (hnul : p nul = false) (hfeed : p '\n' = false) (hp : p d = true) :
      s.cursor.Ahead 1 :=
    Cursor.ahead_one (by rw [hd]; exact isInline_of p hnul hfeed hp)
  have hchar (e : Char) (he : d = e) (hinline : isInline e = true) : s.cursor.Ahead 1 :=
    Cursor.ahead_one (by rw [hd, he]; exact hinline)
  -- The cases are in the order of the tests; what a step skips is the character of its test.
  unfold step
  refine .ite (fun hc => ?_) fun _ => ?_
  · exact directive_inOrder h (hchar '%' (of_decide_eq_true (Bool.and_eq_true_iff.mp hc).2) rfl)
  refine .ite (fun hc => ?_) fun _ => ?_
  · exact document_inOrder rfl h (ahead_of_atMarker rfl (Bool.and_eq_true_iff.mp hc).2)
  refine .ite (fun hc => ?_) fun _ => ?_
  · exact documentEnd_inOrder h (ahead_of_atMarker rfl (Bool.and_eq_true_iff.mp hc).2)
  refine .ite (fun _ => .error _) fun _ => ?_
  refine .ite (fun hc => flowStart_inOrder rfl h (hchar _ hc rfl)) fun _ => ?_
  refine .ite (fun hc => flowStart_inOrder rfl h (hchar _ hc rfl)) fun _ => ?_
  refine .ite (fun hc => flowEnd_inOrder rfl h (hchar _ hc rfl)) fun _ => ?_
  refine .ite (fun hc => flowEnd_inOrder rfl h (hchar _ hc rfl)) fun _ => ?_
  refine .ite (fun hc => flowEntry_inOrder h (hchar _ hc rfl)) fun _ => ?_
  refine .ite (fun hc => ?_) fun _ => ?_
  · obtain ⟨hdash, hsep⟩ := Bool.and_eq_true_iff.mp hc
    exact blockEntry_inOrder h hstands (hd.trans (of_decide_eq_true hdash)) hsep
  refine .ite (fun hc => ?_) fun _ => ?_
  · exact explicitKey_inOrder h
      (hchar '?' (of_decide_eq_true (Bool.and_eq_true_iff.mp hc).1) rfl)
  refine .ite (fun hc => ?_) fun _ => ?_
  · exact value_inOrder h hfresh
      (hchar ':' (of_decide_eq_true (Bool.and_eq_true_iff.mp hc).1) rfl)
  refine .ite (fun hc => anchor_inOrder rfl h (hchar _ hc rfl)) fun _ => ?_
  refine .ite (fun hc => anchor_inOrder rfl h (hchar _ hc rfl)) fun _ => ?_
  refine .ite (fun hc => tag_inOrder h (hchar _ hc rfl)) fun _ => ?_
  refine .ite (fun hc => ?_) fun _ => ?_
  · exact blockScalar_inOrder h
      (hone (fun d => d = '|' || d = '>') rfl rfl (Bool.and_eq_true_iff.mp hc).1)
  refine .ite (fun hc => quotedScalar_inOrder .single h (hchar _ hc rfl)) fun _ => ?_
  refine .ite (fun hc => quotedScalar_inOrder .double h (hchar _ hc rfl)) fun _ => ?_
  exact .ite (fun _ => .error _) fun _ => plainScalar_inOrder h

/-! ### The whole run -/

theorem ofText_inOrder (text : List Char) : (ofText text).InOrder text := by
  have hstart : Ordered text 1 { cursor := Cursor.ofText text } :=
    ⟨.refl _, Nat.le_refl _, rfl, .nil, nofun, nofun, .nil text _, nofun, nofun, .nil⟩
  exact (hstart.push (m := {}) rfl rfl).inOrder

theorem prepare_inOrder (h : s.InOrder text) :
    Ensures s.prepare fun s' => s'.InOrder text ∧ s'.KeyIsFresh := by
  refine (skipToToken_ensures h).bind fun s' h' => ?_
  refine (dropStaleKey_ensures s').bind ?_
  rintro s'' ⟨hsame, hfresh⟩
  have h'' : s''.InOrder text := by
    rcases hsame with rfl | rfl
    · exact h'.inOrder
    · exact h'.dropKey.inOrder
  obtain ⟨_, -, -, hcursor, hkey, houter⟩ := s''.closeBlocks_eq s''.column
  refine .ok ⟨((Ordered.closeBlocks h'' rfl _).move (Cursor.fetch_reads _ 4)).inOrder, ?_⟩
  -- Closing blocks moves neither the cursor nor the candidates.
  intro hpossible hflow
  show (s''.closeBlocks s''.column).cursor.line ≤ (s''.closeBlocks s''.column).key.mark.line
  rw [hcursor, hkey]
  refine hfresh (hkey ▸ hpossible) ?_
  rw [inFlow, ← houter]
  exact hflow

theorem handOut_inOrder (h : s.InOrder text) : Ensures s.handOut (InOrder text) := by
  refine (dropStaleKey_ensures s).bind ?_
  rintro s' ⟨hsame, -⟩
  refine .ok ?_
  rcases hsame with rfl | rfl
  · exact h
  · exact (Ordered.dropKey h).inOrder

end Scanner

/-- The start of a line, the next one if this is not empty. -/
def Mark.lineStart (m : Mark) : Mark := if m.column = 0 then m else ⟨m.index, m.line + 1, 0⟩

/-- The tokens found before the end, in line order up to the mark `m` where the text ends. -/
structure Finished (text : List Char) (found : List Scanned) (m : Mark) : Prop where
  sorted : found.Pairwise fun earlier later => earlier.mark.line ≤ later.mark.line
  found_le : ∀ t ∈ found, t.mark.line ≤ m.line
  sound : ∀ t ∈ found, t.Sound text
  entries : ∃ dashes : List Nat,
    List.Forall₂ (fun t => EntryAt text t.mark) (entriesOf found) dashes ∧
      dashes.Pairwise fun earlier later => dashEnd text earlier ≤ later
  behind : ∃ read, m.Behind text read

/-- The tokens found, and the ends of the blocks that are still open where the text ends. -/
def withEnds (found : List Scanned) (ends : Nat) (m : Mark) : List Scanned :=
  found ++ List.replicate ends ⟨.blockEnd, m.lineStart⟩

namespace Finished

variable {found : List Scanned} {m : Mark}

theorem sound_withEnds (h : Finished text found m) (ends : Nat) :
    ∀ t ∈ withEnds found ends m, t.Sound text := by
  intro t ht
  rcases List.mem_append.mp ht with ht | ht
  · exact h.sound t ht
  · rw [List.eq_of_mem_replicate ht]
    exact Scanned.sound_of_startsAtMark rfl

theorem sorted_withEnds (h : Finished text found m) (ends : Nat) :
    (withEnds found ends m).Pairwise fun t u => t.mark.line ≤ u.mark.line := by
  have hline : m.line ≤ m.lineStart.line := by
    unfold Mark.lineStart
    split
    · exact Nat.le_refl _
    · exact Nat.le_succ _
  refine List.pairwise_append.mpr ⟨h.sorted, ?_, ?_⟩
  · exact List.pairwise_replicate.mpr (.inr (Nat.le_refl _))
  · intro t ht u hu
    rw [List.eq_of_mem_replicate hu]
    exact Nat.le_trans (h.found_le t ht) hline

end Finished

/-- The tokens are in line order, and the end of the stream comes behind all blocks. -/
def ScanOrdered (text : List Char) (tokens : List Scanned) : Prop :=
  ∃ found ends m, Finished text found m ∧
    tokens = withEnds found ends m ++ [⟨.streamEnd, m.lineStart⟩]

namespace Scanner

theorem endStream_ordered (h : s.InOrder text) : Ensures s.endStream (ScanOrdered text) := by
  simp only [endStream]
  split
  · exact .error _
  · refine .ok ⟨s.found.reverse, ?_⟩
    obtain ⟨ends, hfound, -, -, -, -⟩ :=
      (s.move { s.cursor with mark := s.endMark }).closeBlocks_eq (-1)
    obtain ⟨dashes, hentries, hdashes, -⟩ := h.entries
    refine ⟨ends, s.mark, ⟨?_, ?_, ?_, ⟨dashes.reverse, ?_, ?_⟩, ⟨_, h.reads.behind⟩⟩, ?_⟩
    · exact List.pairwise_reverse.mpr h.sorted
    · exact fun t ht => h.found_le t (List.mem_reverse.mp ht)
    · exact fun t ht => Ordered.sound h t (List.mem_reverse.mp ht)
    · rw [entriesOf, List.filter_reverse]
      exact List.forall₂_reverse_iff.mpr hentries
    · exact List.pairwise_reverse.mpr hdashes
    · show (_ :: (closeBlocks _ _).found).reverse = _
      rw [hfound, List.reverse_cons, List.reverse_append, List.reverse_replicate]
      rfl

theorem run_ordered (bound : List Char) (h : s.InOrder text)
    (hstands : Ensures s.prepare (Stands text)) : Ensures (s.run bound) (ScanOrdered text) := by
  -- Preparing, stepping and handing out all keep the order, so every round starts in order.
  induction bound generalizing s with
  | nil => exact (prepare_inOrder h).bind fun s' h' => endStream_ordered h'.1
  | cons _ more ih =>
    refine ((prepare_inOrder h).and hstands).bind ?_
    rintro s' ⟨⟨h', hfresh⟩, hstands'⟩
    cases hrest : s'.cursor.rest with
    | nil => exact endStream_ordered h'
    | cons d ds =>
      refine ((step_inOrder h' hfresh hstands' (Cursor.peek_of_cons hrest)).and fun _ hstep => hstep).bind ?_
      rintro s'' ⟨h'', hstep⟩
      refine ((handOut_inOrder h'').and fun _ hout => hout).bind ?_
      rintro u ⟨hu, hout⟩
      exact ih hu fun t ht => hstands'.next hrest hstep hout ht

end Scanner

/-- Whatever the text, the marks of its tokens are in line order. -/
theorem scan_ordered (text : List Char) : Ensures (scan text) (ScanOrdered text) :=
  Scanner.run_ordered _ (Scanner.ofText_inOrder text) fun _ => .first

end DocMark.Yaml
