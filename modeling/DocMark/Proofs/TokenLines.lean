import Mathlib.Control.Monad.Basic
import Mathlib.Data.List.Chain
import DocMark.DocumentStart
import DocMark.Proofs.ScannerOrder
import DocMark.Token.Stream

/-!
# The lines of the tokens

In what order do the tokens of a stream lie on their lines?  The marks of the scanner are in line
order for every text (`scan_ordered`), but a stream takes three kinds of positions from elsewhere,
and they fit the marks only as far as lines are counted alike:

* the end of the stream lies where the text ends, in lines that end at line feeds.  The blocks that
  end with it lie at a mark of the scanner's own making, the start of the line after that;
* the entry of a block sequence lies at the dash before its mark, which is looked for by the index
  of the mark;
* a block mapping lies at its first key.

Main statement: `tokenize_lines` says which streams are in line order, and why others are not.
-/

namespace DocMark.Yaml

variable {l : Layout} {t : Scanned} {next : Option Token}

/-! ### Placing -/

/-- The token, moved to the key after it if it is a mapping. -/
def Scanned.tokenBefore (l : Layout) (t : Scanned) (next : Option Token) : Token :=
  next.elim (t.token l) (meetKey (t.token l))

theorem placeIn_cons_eq (l : Layout) (t : Scanned) (ts : List Scanned) :
    placeIn l (t :: ts) = t.tokenBefore l (placeIn l ts).head? :: placeIn l ts := by
  rw [placeIn]
  cases placeIn l ts <;> rfl

@[simp] theorem kind_meetKey (mapping next : Token) : (meetKey mapping next).kind = mapping.kind := by
  unfold meetKey
  split <;> rfl

@[simp] theorem kind_tokenBefore : (t.tokenBefore l next).kind = t.kind := by
  cases next with
  | none => rfl
  | some k => exact kind_meetKey (t.token l) k

/-- A mapping moves to the key that it meets. -/
theorem tokenBefore_of_key {k : Token} (h : t.kind = .blockMappingStart) (hk : k.kind = .key) :
    t.tokenBefore l (some k) = ⟨t.kind, k.line, k.column⟩ := by
  have ht : (t.token l).kind = .blockMappingStart := h
  simp [Scanned.tokenBefore, meetKey, ht, hk, h]

/-- A token that meets no key stays where it is. -/
theorem tokenBefore_of_no_key
    (h : t.kind = .blockMappingStart → ∀ k, next = some k → k.kind ≠ .key) :
    t.tokenBefore l next = t.token l := by
  cases next with
  | none => rfl
  | some k =>
    have hmeet : ¬((t.token l).kind = .blockMappingStart ∧ k.kind = .key) :=
      fun hboth => h hboth.1 k rfl hboth.2
    simp only [Scanned.tokenBefore, Option.elim_some, meetKey, Bool.and_eq_true, decide_eq_true_eq,
      if_neg hmeet]

/-- A token keeps its own position, or is a mapping before a key. -/
theorem placeIn_cons (l : Layout) (t : Scanned) (ts : List Scanned) :
    ∃ p, placeIn l (t :: ts) = p :: placeIn l ts ∧
      (p = t.token l ∨ p.kind = .blockMappingStart ∧ ∃ next ∈ (placeIn l ts).head?,
        next.kind = .key ∧ p.line = next.line ∧ p.column = next.column) := by
  refine ⟨_, placeIn_cons_eq l t ts, ?_⟩
  by_cases hmeets : t.kind = .blockMappingStart ∧ ∃ k, (placeIn l ts).head? = some k ∧ k.kind = .key
  · obtain ⟨hmapping, k, hk, hkey⟩ := hmeets
    rw [hk, tokenBefore_of_key hmapping hkey]
    exact .inr ⟨hmapping, k, rfl, hkey, rfl, rfl⟩
  · refine .inl (tokenBefore_of_no_key fun hmapping k hk hkey => ?_)
    exact hmeets ⟨hmapping, k, hk, hkey⟩

/-- Every position in a stream is that of a token: its own or, for a mapping, that of a key. -/
theorem exists_of_mem_placeIn {l : Layout} {ts : List Scanned} {p : Token} (hp : p ∈ placeIn l ts) :
    ∃ t ∈ ts, p.line = (t.token l).line ∧ p.column = (t.token l).column ∧
      (p.kind = t.kind ∨ p.kind = .blockMappingStart ∧ t.kind = .key) := by
  induction ts generalizing p with
  | nil => cases hp
  | cons t ts ih =>
    obtain ⟨q, heq, hq⟩ := placeIn_cons l t ts
    rw [heq] at hp
    rcases List.mem_cons.mp hp with rfl | hp
    · rcases hq with rfl | ⟨hmapping, next, hnext, hkey, hline, hcolumn⟩
      · exact ⟨t, List.mem_cons_self .., rfl, rfl, .inl rfl⟩
      · obtain ⟨u, hu, hline', hcolumn', hkind⟩ := ih (List.mem_of_mem_head? hnext)
        refine ⟨u, List.mem_cons_of_mem _ hu, hline.trans hline', hcolumn.trans hcolumn', ?_⟩
        rcases hkind with hkind | ⟨hkind, -⟩
        · exact .inr ⟨hmapping, hkind ▸ hkey⟩
        · rw [hkey] at hkind
          cases hkind
    · obtain ⟨u, hu, h⟩ := ih hp
      exact ⟨u, List.mem_cons_of_mem _ hu, h⟩

/-- A token that is no key leaves the tokens before it where they are. -/
theorem placeIn_concat (l : Layout) (ts : List Scanned) {e : Scanned} (he : e.kind ≠ .key) :
    placeIn l (ts ++ [e]) = placeIn l ts ++ [e.token l] := by
  induction ts with
  | nil => rfl
  | cons t ts ih =>
    rw [List.cons_append, placeIn, ih, placeIn]
    cases placeIn l ts with
    | nil =>
      have hkey : (e.token l).kind ≠ .key := he
      simp [meetKey, hkey]
    | cons next rest => rfl

/-- If the tokens of some kinds lie on the lines of their marks and the marks are in line order,
then so are neighbours of these kinds. -/
theorem isChain_placeIn {l : Layout} {k : TokenKind → Bool} (hkey : k .key = true)
    {ts : List Scanned} (hsorted : ts.Pairwise fun t u => t.mark.line ≤ u.mark.line)
    (hkinds : ∀ t ∈ ts, k t.kind = true → (t.token l).line = t.mark.line - 1) :
    (placeIn l ts).IsChain fun a b =>
      k a.kind = true → k b.kind = true → a.line ≤ b.line := by
  induction ts with
  | nil => exact .nil
  | cons t ts ih =>
    obtain ⟨p, heq, hp⟩ := placeIn_cons l t ts
    obtain ⟨hfirst, hrest⟩ := List.pairwise_cons.mp hsorted
    rw [heq, List.isChain_cons]
    refine ⟨fun b hb ha hb' => ?_, ih hrest fun u hu => hkinds u (List.mem_cons_of_mem _ hu)⟩
    rcases hp with rfl | ⟨-, next, hnext, -, hline, -⟩
    · obtain ⟨u, hu, hline, -, hkind⟩ := exists_of_mem_placeIn (List.mem_of_mem_head? hb)
      have hu' : k u.kind = true := by
        rcases hkind with hkind | ⟨-, hkind⟩
        · rwa [← hkind]
        · rwa [hkind]
      rw [hline, hkinds t (List.mem_cons_self ..) ha, hkinds u (List.mem_cons_of_mem _ hu) hu']
      exact Nat.sub_le_sub_right (hfirst u hu) 1
    · have hsame : next = b := Option.some.inj (hnext.symm.trans hb)
      rw [hline, hsame]

/-! ### The dash of an entry -/

theorem count_take_le (text : List Char) {j k : Nat} (h : j ≤ k) :
    (text.take j).count '\n' ≤ (text.take k).count '\n' :=
  (List.take_sublist_take_left h).count_le _

/-- If a dash lies on the line of an offset before it, then the dash that is looked for from there
lies on that line. -/
theorem line_dashBefore? {text : List Char} {offset dash : Nat} {p : Text.Position}
    (hlt : dash < offset) (hdash : text[dash]? = some '-')
    (hline : (Text.positionAt text dash).line = (Text.positionAt text offset).line)
    (hp : (Layout.ofText text).dashBefore? offset = some p) :
    p.line = (Text.positionAt text offset).line := by
  rw [Layout.dashBefore?_ofText] at hp
  obtain ⟨spaces, hspaces⟩ :
    ∃ spaces, spaces = (text.take offset).reverse.takeWhile Text.isSpace := ⟨_, rfl⟩
  have hsplit : spaces ++ (text.take offset).reverse.dropWhile Text.isSpace =
      (text.take offset).reverse := hspaces ▸ List.takeWhile_append_dropWhile
  split at hp
  · next before hbefore =>
    rw [hbefore] at hsplit
    have htake : text.take offset = before.reverse ++ '-' :: spaces.reverse := by
      rw [← List.reverse_reverse (text.take offset), ← hsplit]
      simp
    -- Behind the dash that is found there is only white space.
    have hle : dash ≤ before.length := by
      refine Nat.le_of_not_lt fun hbehind => ?_
      have hmem : '-' ∈ spaces := by
        have hget : (text.take offset)[dash]? = some '-' := by
          rw [List.getElem?_take_of_lt hlt, hdash]
        rw [htake, List.getElem?_append_right (by rw [List.length_reverse]; omega)] at hget
        rw [List.length_reverse] at hget
        obtain ⟨k, hk⟩ := Nat.exists_eq_add_of_lt hbehind
        rw [hk, show before.length + k + 1 - before.length = k + 1 by omega,
          List.getElem?_cons_succ] at hget
        exact List.mem_reverse.mp (List.mem_of_getElem? hget)
      rw [hspaces] at hmem
      exact absurd (List.all_eq_true.mp List.all_takeWhile _ hmem) (by decide)
    have hbefore : before.length ≤ offset := by
      have hlength := congrArg List.length htake
      rw [List.length_take, List.length_append, List.length_reverse] at hlength
      omega
    have hfound : text.take before.length = before.reverse := by
      rw [← Nat.min_eq_left hbefore, ← List.take_take, htake, ← List.length_reverse, List.take_left]
    have hlow := count_take_le text hle
    have hhigh := count_take_le text hbefore
    rw [Text.positionAt, Text.positionAt, Text.line_endOf, Text.line_endOf] at hline
    rw [← Option.some.inj hp, Text.positionAt, Text.line_endOf, Text.line_endOf, ← hfound]
    omega
  · cases hp

theorem line_dashBefore?_le {text : List Char} {offset : Nat} {p : Text.Position}
    (hp : (Layout.ofText text).dashBefore? offset = some p) :
    p.line ≤ (Text.endOf text).line := by
  rw [Layout.dashBefore?_ofText] at hp
  split at hp
  · next before hbefore =>
    have hsuffix : ('-' :: before) <:+ (text.take offset).reverse :=
      hbefore ▸ List.dropWhile_suffix _
    have hbelow := ((List.sublist_cons_self _ _).trans hsuffix.sublist).count_le '\n'
    have htake := (List.take_sublist offset text).count_le '\n'
    rw [List.count_reverse] at hbelow
    rw [← Option.some.inj hp, Text.line_endOf, Text.line_endOf, List.count_reverse]
    exact Nat.le_trans hbelow htake
  · cases hp

/-! ### Positions and marks -/

theorem line_token (l : Layout) {t : Scanned} (h : startsAtMark t.kind = true) :
    (t.token l).line = t.mark.line - 1 := by
  obtain ⟨kind, m⟩ := t
  cases kind with
  | blockEntry => cases h
  | streamEnd => cases h
  | _ => rfl

/-- Only an entry lies elsewhere than at its mark, and only if a dash is found. -/
theorem line_token_cases (l : Layout) {t : Scanned} (h : t.kind ≠ .streamEnd) :
    (t.token l).line = t.mark.line - 1 ∨ t.kind = .blockEntry ∧
      ∃ p, l.dashBefore? t.mark.index = some p ∧ (t.token l).line = p.line := by
  by_cases hentry : t.kind = .blockEntry
  · obtain ⟨kind, m⟩ := t
    subst hentry
    show ((l.dashBefore? m.index).getD m.position).line = _ ∨ _
    cases hfound : l.dashBefore? m.index with
    | none => exact .inl rfl
    | some p =>
      refine .inr ⟨rfl, p, rfl, ?_⟩
      show ((l.dashBefore? m.index).getD m.position).line = _
      rw [hfound]
      rfl
  · exact .inl (line_token l (by simp [startsAtMark, hentry, h]))

/-- Where the index of a mark lies on the line of the mark, so does the entry. -/
theorem line_token_of_agree {text : List Char} {t : Scanned}
    (hpaired : Text.returnsPaired text = true) (hsound : t.Sound text)
    (hagree : t.kind = .blockEntry →
      (Text.positionAt text t.mark.index).line + 1 = t.mark.line) :
    (t.token (Layout.ofText text)).line = t.mark.line - 1 := by
  rcases line_token_cases (Layout.ofText text) hsound.1 with hline | ⟨hentry, p, hfound, hline⟩
  · exact hline
  · obtain ⟨-, dash, hlt, hdash, hmark⟩ := hsound.2 hentry
    have hindex := hagree hentry
    have hmark := hmark hpaired
    have hp := line_dashBefore? hlt hdash (by omega) hfound
    omega

theorem agree_of_singleBytes {text : List Char} {t : Scanned}
    (hpaired : Text.returnsPaired text = true) (hbytes : ∀ c ∈ text, c.utf8Size = 1)
    (hsound : t.Sound text) (hentry : t.kind = .blockEntry) :
    (Text.positionAt text t.mark.index).line + 1 = t.mark.line := by
  obtain ⟨⟨read, hread⟩, -⟩ := hsound.2 hentry
  have hlength : Text.byteLength read = read.length :=
    Text.byteLength_of_singleBytes fun c hc => hbytes c (hread.beginning.subset hc)
  have hindex : t.mark.index = read.length := by
    have := hread.length_le
    have := hread.le_byteLength
    omega
  rw [hindex, Text.positionAt, ← List.prefix_iff_eq_take.mp hread.beginning, Text.line_endOf,
    hread.line_eq hpaired]

/-- No token found on the way lies below the end of the text. -/
theorem Finished.line_token_le {text : List Char} {found : List Scanned} {m : Mark}
    (h : Finished text found m) (hpaired : Text.returnsPaired text = true) {t : Scanned}
    (ht : t ∈ found) : (t.token (Layout.ofText text)).line ≤ (Text.endOf text).line := by
  rcases line_token_cases (Layout.ofText text) (h.sound t ht).1 with hline | ⟨-, p, hfound, hline⟩
  · obtain ⟨read, hread⟩ := h.behind
    have hm := hread.line_eq hpaired
    have hle := h.found_le t ht
    have hcount := hread.beginning.sublist.count_le '\n'
    rw [hline, Text.line_endOf]
    omega
  · rw [hline]
    exact line_dashBefore?_le hfound

theorem column_endOf_ne_zero {text : List Char} (hne : text ≠ [])
    (hlast : text.getLast? ≠ some '\n') : (Text.endOf text).column ≠ 0 := by
  rw [← List.head?_reverse] at hlast
  show (text.reverse.takeWhile (· ≠ '\n')).length ≠ 0
  cases hrev : text.reverse with
  | nil => exact absurd (List.reverse_eq_nil_iff.mp hrev) hne
  | cons c cs =>
    have hc : c ≠ '\n' := fun he => hlast (by rw [hrev, he]; rfl)
    rw [List.takeWhile_cons, if_pos (by simpa using hc)]
    exact Nat.succ_ne_zero _

/-- The line that the scanner starts at the end is one of the text, or the next one. -/
theorem lineStart_le {text : List Char} {m : Mark} {read : List Char} (h : m.Behind text read)
    (hpaired : Text.returnsPaired text = true) :
    m.lineStart.line - 1 ≤ (Text.endOf text).line ∨
      m.lineStart.line - 1 = (Text.endOf text).line + 1 ∧ m.lineStart.column = 0 ∧
        (Text.endOf text).column ≠ 0 := by
  have hline := h.line_eq hpaired
  obtain ⟨after, rfl⟩ := h.beginning
  rw [Text.line_endOf, List.count_append]
  unfold Mark.lineStart
  split
  · left
    omega
  · next hcolumn =>
    have hread : read ≠ [] := fun hnil => hcolumn (h.column_eq (.inl hnil))
    have hlast : read.getLast? ≠ some '\n' := fun hlast => hcolumn (h.column_eq (.inr hlast))
    -- The next line is one of the text if a line feed is still to come.
    by_cases hafter : '\n' ∈ after
    · have := List.count_pos_iff.mpr hafter
      left
      show m.line + 1 - 1 ≤ _
      omega
    · right
      refine ⟨?_, rfl, column_endOf_ne_zero (by simp [hread]) ?_⟩
      · show m.line + 1 - 1 = _
        rw [List.count_eq_zero.mpr hafter]
        omega
      · rw [List.getLast?_append]
        cases hend : after.getLast? with
        | none => exact hlast
        | some c =>
          intro heq
          exact hafter (List.mem_of_getLast? (hend.trans heq))

end DocMark.Yaml

namespace DocMark

open Yaml

/-! ### Streams -/

/-- The lines never fall along the stream. -/
def LinesSorted (tokens : List Token) : Prop := tokens.Pairwise fun a b => a.line ≤ b.line

/-- No entry of a block sequence lies above the token before it or below the token after it. -/
def EntriesBetween (tokens : List Token) : Prop :=
  tokens.IsChain fun a b => a.kind = .blockEntry ∨ b.kind = .blockEntry → a.line ≤ b.line

/-- No token lies below the end of the text. -/
def NoneBelow (text : List Char) (tokens : List Token) : Prop :=
  ∀ t ∈ tokens, t.line ≤ (Text.endOf text).line

/-- The token is a block that ends below the text, whose last line has no line feed. -/
def EndsBelow (text : List Char) (t : Token) : Prop :=
  t.kind = .blockEnd ∧ t.line = (Text.endOf text).line + 1 ∧ t.column = 0 ∧
    (Text.endOf text).column ≠ 0

/-- The index of the mark of every entry lies on the line of that mark. -/
def EntriesAgree (text : List Char) : Prop :=
  ∀ marked, scan text = .ok marked → ∀ t ∈ marked, t.kind = .blockEntry →
    (Text.positionAt text t.mark.index).line + 1 = t.mark.line

instance (tokens : List Token) : Decidable (LinesSorted tokens) :=
  inferInstanceAs (Decidable (tokens.Pairwise _))

/-- Where only such blocks can lie below the end, they are what has to be looked for. -/
theorem noneBelow_iff {text : List Char} {tokens : List Token}
    (h : ∀ t ∈ tokens, t.line ≤ (Text.endOf text).line ∨ EndsBelow text t) :
    NoneBelow text tokens ↔ ∀ t ∈ tokens, ¬EndsBelow text t := by
  constructor
  · rintro hnone t ht ⟨-, hline, -⟩
    have hle := hnone t ht
    omega
  · intro hnone t ht
    exact (h t ht).resolve_right (hnone t ht)

/-- What holds of neighbours in a stream holds of the tokens that a window shows side by side. -/
theorem forall_windowsAfter_of_isChain {r : Token → Token → Prop} {prev : Option Token}
    {tokens : List Token} (hprev : ∀ p, prev = some p → ∀ t ∈ tokens.head?, r p t)
    (h : tokens.IsChain r) :
    ∀ w ∈ windowsAfter prev tokens, ∀ p, w.prev = some p → r p w.token := by
  induction tokens generalizing prev with
  | nil =>
    intro w hw
    cases hw
  | cons t ts ih =>
    obtain ⟨hnext, hrest⟩ := List.isChain_cons.mp h
    intro w hw p hp
    rw [windowsAfter, List.mem_cons] at hw
    rcases hw with rfl | hw
    · exact hprev p hp t rfl
    · refine ih ?_ hrest w hw p hp
      intro q hq u hu
      cases hq
      exact hnext u hu

theorem forall_windows_of_isChain {r : Token → Token → Prop} {tokens : List Token}
    (h : tokens.IsChain r) : ∀ w ∈ windows tokens, ∀ p, w.prev = some p → r p w.token :=
  forall_windowsAfter_of_isChain nofun h

/-- Of a stream whose tokens are in line order but for the entries, the entries and the end tell
whether all are. -/
theorem linesSorted_concat_iff {tokens : List Token} (last : Token)
    (hends : ∀ t ∈ tokens, t.kind ≠ .streamEnd)
    (hchain : tokens.IsChain fun a b =>
      startsAtMark a.kind = true → startsAtMark b.kind = true → a.line ≤ b.line) :
    LinesSorted (tokens ++ [last]) ↔
      EntriesBetween (tokens ++ [last]) ∧ ∀ t ∈ tokens ++ [last], t.line ≤ last.line := by
  have hstarts : ∀ t ∈ tokens, t.kind ≠ .blockEntry → startsAtMark t.kind = true := by
    intro t ht hentry
    simp [startsAtMark, hentry, hends t ht]
  constructor
  · intro hsorted
    refine ⟨(List.Pairwise.isChain hsorted).imp fun a b hle _ => hle, fun t ht => ?_⟩
    rcases List.mem_append.mp ht with ht | ht
    · exact (List.pairwise_append.mp hsorted).2.2 t ht last (List.mem_singleton_self _)
    · rw [List.mem_singleton.mp ht]
  · rintro ⟨hentries, hbelow⟩
    have hentries := List.IsChain.left_of_append hentries
    have hsorted : tokens.IsChain fun a b => a.line ≤ b.line := by
      rw [List.isChain_iff_forall_rel_of_append_cons_cons] at hentries hchain ⊢
      intro a b before after heq
      -- An entry among two neighbours is in its place, and without one they are in order anyway.
      by_cases hentry : a.kind = .blockEntry ∨ b.kind = .blockEntry
      · exact hentries heq hentry
      · rw [not_or] at hentry
        have ha : a ∈ tokens := by simp [heq]
        have hb : b ∈ tokens := by simp [heq]
        exact hchain heq (hstarts a ha hentry.1) (hstarts b hb hentry.2)
    have : Trans (fun a b : Token => a.line ≤ b.line) (fun a b : Token => a.line ≤ b.line)
      (fun a b : Token => a.line ≤ b.line) := ⟨Nat.le_trans⟩
    refine List.pairwise_append.mpr ⟨hsorted.pairwise, List.pairwise_singleton _ _, ?_⟩
    intro t ht u hu
    rw [List.mem_singleton.mp hu]
    exact hbelow t (List.mem_append_left _ ht)

section Stream

variable {text : List Char} {found : List Scanned} {m : Mark}

/-- The end of the stream. -/
def streamEnd (text : List Char) : Token :=
  ⟨.streamEnd, (Text.endOf text).line, (Text.endOf text).column⟩

theorem tokenize_ensures (text : List Char) :
    Ensures (tokenize text) fun tokens => ∃ found ends m, Finished text found m ∧
      scan text = .ok (withEnds found ends m ++ [⟨.streamEnd, m.lineStart⟩]) ∧
      tokens = place text (withEnds found ends m) ++ [streamEnd text] := by
  unfold tokenize
  cases hscan : scan text with
  | error e => exact .error _
  | ok marked =>
    obtain ⟨found, ends, m, hfinished, rfl⟩ := scan_ordered text marked hscan
    exact .ok ⟨found, ends, m, hfinished, rfl, placeIn_concat _ _ nofun⟩

theorem kind_ne_streamEnd (h : Finished text found m) (ends : Nat) :
    ∀ p ∈ place text (withEnds found ends m), p.kind ≠ .streamEnd := by
  intro p hp
  obtain ⟨t, ht, -, -, hkind | ⟨hkind, -⟩⟩ := exists_of_mem_placeIn hp
  · rw [hkind]
    exact (h.sound_withEnds ends t ht).1
  · rw [hkind]
    nofun

theorem isChain_stream (h : Finished text found m) (ends : Nat) :
    (place text (withEnds found ends m) ++ [streamEnd text]).IsChain fun a b =>
      startsAtMark a.kind = true → startsAtMark b.kind = true → a.line ≤ b.line := by
  have hchain := isChain_placeIn (l := Layout.ofText text) (k := startsAtMark) rfl
    (h.sorted_withEnds ends) fun _ _ => line_token _
  refine hchain.append (.singleton _) ?_
  intro a _ b hb _ hb'
  cases hb
  cases hb'

/-- The only tokens below the end of the text are blocks that end with it. -/
theorem line_le_of_mem_place (h : Finished text found m) {ends : Nat}
    (hpaired : Text.returnsPaired text = true) {p : Token}
    (hp : p ∈ place text (withEnds found ends m)) :
    p.line ≤ (Text.endOf text).line ∨ EndsBelow text p := by
  unfold EndsBelow
  obtain ⟨t, ht, hline, hcolumn, hkind⟩ := exists_of_mem_placeIn hp
  rw [hline, hcolumn]
  rcases List.mem_append.mp ht with ht | ht
  · exact .inl (h.line_token_le hpaired ht)
  · rw [List.eq_of_mem_replicate ht] at hkind ⊢
    have hkind : p.kind = .blockEnd := by
      rcases hkind with hkind | ⟨-, hkind⟩
      · exact hkind
      · cases hkind
    obtain ⟨read, hread⟩ := h.behind
    exact (lineStart_le hread hpaired).imp id fun hnext => ⟨hkind, hnext⟩

theorem line_le_of_mem_stream (h : Finished text found m) (ends : Nat)
    (hpaired : Text.returnsPaired text = true) :
    ∀ t ∈ place text (withEnds found ends m) ++ [streamEnd text],
      t.line ≤ (Text.endOf text).line ∨ EndsBelow text t := by
  intro t ht
  rcases List.mem_append.mp ht with ht | ht
  · exact line_le_of_mem_place h hpaired ht
  · rw [List.mem_singleton.mp ht]
    exact .inl (Nat.le_refl _)

/-- Where entries agree, all neighbours are in line order but for a block that ends with the
stream. -/
theorem isChain_stream_of_agree (h : Finished text found m) (ends : Nat)
    (hpaired : Text.returnsPaired text = true)
    (hagree : ∀ t ∈ withEnds found ends m, t.kind = .blockEntry →
      (Text.positionAt text t.mark.index).line + 1 = t.mark.line) :
    (place text (withEnds found ends m) ++ [streamEnd text]).IsChain fun a b =>
      a.kind ≠ .blockEnd ∨ b.kind ≠ .streamEnd → a.line ≤ b.line := by
  have hline : ∀ t ∈ withEnds found ends m,
      (t.token (Layout.ofText text)).line = t.mark.line - 1 := fun t ht =>
    line_token_of_agree hpaired (h.sound_withEnds ends t ht) (hagree t ht)
  have hchain := isChain_placeIn (k := fun _ => true) rfl (h.sorted_withEnds ends)
    fun t ht _ => hline t ht
  refine (hchain.imp fun a b hle _ => hle rfl rfl).append (.singleton _) ?_
  intro a ha b hb hkind
  cases hb
  rcases line_le_of_mem_place h hpaired (List.mem_of_mem_getLast? ha) with hle | ⟨hend, -⟩
  · exact hle
  · rcases hkind with hkind | hkind
    · exact absurd hend hkind
    · exact absurd rfl hkind

theorem entriesBetween_of_isChain {tokens : List Token}
    (h : tokens.IsChain fun a b => a.kind ≠ .blockEnd ∨ b.kind ≠ .streamEnd → a.line ≤ b.line) :
    EntriesBetween tokens := by
  refine h.imp fun a b hle hentry => hle ?_
  rcases hentry with hentry | hentry
  · exact .inl (by rw [hentry]; nofun)
  · exact .inr (by rw [hentry]; nofun)

end Stream

/-- In a text of single bytes the index of a mark is the number of characters before it. -/
theorem entriesAgree_of_singleBytes {text : List Char}
    (hpaired : Text.returnsPaired text = true) (hbytes : ∀ c ∈ text, c.utf8Size = 1) :
    EntriesAgree text := by
  intro marked hmarked t ht hentry
  obtain ⟨found, ends, m, hfinished, rfl⟩ := scan_ordered text marked hmarked
  rcases List.mem_append.mp ht with ht | ht
  · exact agree_of_singleBytes hpaired hbytes (hfinished.sound_withEnds ends t ht) hentry
  · rw [List.mem_singleton.mp ht] at hentry
    cases hentry

/-- The lines of the tokens of a stream.

Neighbours that are neither entries nor the end of the stream are in line order for every text, so
all tokens are unless an entry stands out of its place or some token lies below the end of the text.
If every carriage return belongs to a line break, the only tokens below the end are those of blocks
that end with a line without a line feed; and if entries agree, as they do in texts of single bytes,
entries are in their places. -/
theorem tokenize_lines {text : List Char} {tokens : List Token}
    (h : tokenize text = .ok tokens) :
    (∀ w ∈ windows tokens, ∀ prev, w.prev = some prev → startsAtMark prev.kind = true →
      startsAtMark w.token.kind = true → prev.line ≤ w.token.line) ∧
    (LinesSorted tokens ↔ EntriesBetween tokens ∧ NoneBelow text tokens) ∧
    (Text.returnsPaired text = true →
      (∀ t ∈ tokens, t.line ≤ (Text.endOf text).line ∨ EndsBelow text t) ∧
      (EntriesAgree text →
        (LinesSorted tokens ↔ ∀ t ∈ tokens, ¬EndsBelow text t) ∧
        ((Text.endOf text).column = 0 → LinesSorted tokens) ∧
        ∀ w ∈ windows tokens, ∀ prev, w.prev = some prev → prev.kind = .documentStart →
          -1 ≤ DocumentStart.emptyLines prev w.token) ∧
      ((∀ c ∈ text, c.utf8Size = 1) → EntriesAgree text)) := by
  obtain ⟨found, ends, m, hfinished, hscan, htokens⟩ := tokenize_ensures text tokens h
  have hchain := isChain_stream hfinished ends
  have hiff : LinesSorted tokens ↔ EntriesBetween tokens ∧ NoneBelow text tokens := by
    rw [htokens]
    exact linesSorted_concat_iff (streamEnd text) (kind_ne_streamEnd hfinished ends)
      hchain.left_of_append
  rw [← htokens] at hchain
  refine ⟨forall_windows_of_isChain hchain, hiff, fun hpaired => ?_⟩
  have hbelow := line_le_of_mem_stream hfinished ends hpaired
  rw [← htokens] at hbelow
  refine ⟨hbelow, fun hagree => ?_, entriesAgree_of_singleBytes hpaired⟩
  have hneighbours := isChain_stream_of_agree hfinished ends hpaired
    fun t ht => hagree _ hscan t (List.mem_append_left _ ht)
  rw [← htokens] at hneighbours
  have hsorted : LinesSorted tokens ↔ ∀ t ∈ tokens, ¬EndsBelow text t := by
    rw [hiff, noneBelow_iff hbelow]
    exact and_iff_right (entriesBetween_of_isChain hneighbours)
  refine ⟨hsorted, fun hcolumn => ?_, ?_⟩
  · apply hsorted.mpr
    rintro t - ⟨-, -, -, hne⟩
    exact hne hcolumn
  · intro w hw prev hprev hstart
    have hle := forall_windows_of_isChain hneighbours w hw prev hprev
      (.inl (by rw [hstart]; nofun))
    unfold DocumentStart.emptyLines
    omega

theorem tokenize_lines_one_entry :
    ∃ tokens, tokenize "- a\n".toList = .ok tokens ∧ LinesSorted tokens := by
  have h : tokenize "- a\n".toList = .ok [⟨.streamStart, 0, 0⟩, ⟨.blockSequenceStart, 0, 0⟩,
      ⟨.blockEntry, 0, 0⟩, ⟨.scalar, 0, 2⟩, ⟨.blockEnd, 1, 0⟩, ⟨.streamEnd, 1, 0⟩] := by
    have hscan : scan "- a\n".toList = .ok [⟨.streamStart, ⟨0, 1, 0⟩⟩,
        ⟨.blockSequenceStart, ⟨0, 1, 0⟩⟩, ⟨.blockEntry, ⟨2, 1, 2⟩⟩, ⟨.scalar, ⟨2, 1, 2⟩⟩,
        ⟨.blockEnd, ⟨4, 2, 0⟩⟩, ⟨.streamEnd, ⟨4, 2, 0⟩⟩] := by decide +kernel
    rw [tokenize, hscan]
    rfl
  have hsingle : ∀ c ∈ "- a\n".toList, c.utf8Size = 1 := by
    show ∀ c ∈ ['-', ' ', 'a', '\n'], c.utf8Size = 1
    simp only [List.forall_mem_cons]
    exact ⟨rfl, rfl, rfl, rfl, nofun⟩
  obtain ⟨-, hagree, hbytes⟩ := (tokenize_lines h).2.2 (by decide)
  obtain ⟨-, hsorted, -⟩ := hagree (hbytes hsingle)
  exact ⟨_, h, hsorted (by decide)⟩

/-- Three ways to fall: a block ends with a line without a line feed, a carriage return stands
alone, and an entry takes the dash of the next one, for the line before it is long in bytes. -/
theorem lines_fall :
    ¬Ensures (tokenize "a: b".toList) LinesSorted ∧
    ¬Ensures (tokenize "---\ra".toList) LinesSorted ∧
    ¬Ensures (tokenize "- |\n  aaaaaaaaaaaaaaaaaaaaéééé\n- a\n- b\n".toList) LinesSorted := by
  decide +kernel

end DocMark
