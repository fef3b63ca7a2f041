import Mathlib.Data.List.ReduceOption
import DocMark.Proofs.EntryPositions

/-!
# Where tokens stand

`place` takes the marks that the scanner gives, whatever they are, and puts every token where it
stands in the text.  What a token needs for that is its own mark, the text, and the token that comes
after it (`StandsAt`); nothing else is ever looked at, so the stream can be built from either end.

The only search is the one for the dash of an entry.  Marks may lie far behind the end of the text,
but the search begins at the end of the text then (`dashBefore?_eq_dashWithin?`), and the positions
that it gives, like that of the end of the stream, are entries of the table of lines.

Main statements:

* `dashBefore?_eq_some_iff` — which dash is found;
* `place_eq_iff_stands` — where the tokens stand, one by one.
-/

namespace DocMark

theorem Token.eq_iff {a b : Token} : a = b ↔ a.kind = b.kind ∧ a.position = b.position := by
  cases a
  cases b
  simp [Token.position]

namespace Yaml

variable {text : List Char} {l : Layout} {t : Scanned} {next : Option Token}
  {p : Text.Position}

/-! ### The dash before a mark -/

/-- The dash lies before the offset, with nothing but white space between, as far as the text
goes. -/
structure DashBefore (text : List Char) (k dash : Nat) : Prop where
  lt : dash < k
  isDash : text[dash]? = some '-'
  clear : ClearTo text dash k

theorem dashBefore?_eq_some_iff {k : Nat} :
    (Layout.ofText text).dashBefore? k = some p ↔
      ∃ dash, DashBefore text k dash ∧ p = Text.positionAt text dash := by
  constructor
  · intro h
    rw [Layout.dashBefore?_ofText] at h
    split at h
    · next before hbefore =>
      obtain ⟨spaces, hspaces⟩ :
        ∃ spaces, spaces = (text.take k).reverse.takeWhile Text.isSpace := ⟨_, rfl⟩
      have hsplit : text.take k = before.reverse ++ '-' :: spaces.reverse := by
        rw [← List.reverse_reverse (text.take k),
          ← List.takeWhile_append_dropWhile (p := Text.isSpace) (l := (text.take k).reverse),
          hbefore, ← hspaces]
        simp
      have hget : (text.take k)[before.length]? = some '-' := by
        rw [hsplit, ← List.length_reverse, List.getElem?_append_right (Nat.le_refl _),
          Nat.sub_self]
        rfl
      obtain ⟨hlt, -⟩ := List.getElem?_eq_some_iff.mp hget
      have hk : before.length < k := Nat.lt_of_lt_of_le hlt (List.length_take_le _ _)
      refine ⟨before.length, ⟨hk, ?_, ?_⟩, ?_⟩
      · rwa [List.getElem?_take_of_lt hk] at hget
      · intro c hc
        rw [hsplit, List.append_cons, List.drop_left' (by simp), List.mem_reverse, hspaces] at hc
        exact List.mem_takeWhile_imp hc
      · have htake : text.take before.length = before.reverse := by
          rw [← Nat.min_eq_left (Nat.le_of_lt hk), ← List.take_take, hsplit,
            List.take_left' (List.length_reverse ..)]
        rw [Text.positionAt, htake]
        exact (Option.some.inj h).symm
    · cases h
  · rintro ⟨dash, hdash, rfl⟩
    exact dashBefore?_of_clearTo hdash.isDash hdash.lt hdash.clear

theorem dashBefore?_eq_none_iff {k : Nat} :
    (Layout.ofText text).dashBefore? k = none ↔ ∀ dash, ¬DashBefore text k dash := by
  rw [Option.eq_none_iff_forall_ne_some]
  constructor
  · intro h dash hdash
    exact h _ (dashBefore?_eq_some_iff.mpr ⟨dash, hdash, rfl⟩)
  · intro h p hp
    obtain ⟨dash, hdash, -⟩ := dashBefore?_eq_some_iff.mp hp
    exact h dash hdash

/-- The search for a dash from an offset within the text.  It cannot look beyond the text. -/
def Layout.dashWithin? (l : Layout) : (n : Nat) → n ≤ l.chars.size → Option Text.Position
  | 0, _ => none
  | n + 1, h =>
    let (c, p) := l.chars[n]
    if Text.isSpace c then l.dashWithin? n (Nat.le_of_succ_le h)
    else if c = '-' then some p else none

/-- From beyond the end of the text, the search begins at that end. -/
theorem dashBefore?_eq_dashWithin? (l : Layout) (k : Nat) {n : Nat} (hn : n ≤ l.chars.size)
    (hmin : n = min k l.chars.size) : l.dashBefore? k = l.dashWithin? n hn := by
  induction k generalizing n with
  | zero =>
    obtain rfl : n = 0 := by simpa using hmin
    rfl
  | succ k ih =>
    rw [Layout.dashBefore?]
    by_cases hk : k < l.chars.size
    · obtain rfl : n = k + 1 := by omega
      rw [Layout.dashWithin?, Array.getElem?_eq_getElem hk, ← ih (Nat.le_of_succ_le hn) (by omega)]
    · rw [Array.getElem?_eq_none (Nat.le_of_not_lt hk)]
      exact ih hn (by omega)

/-! ### One token -/

/-- Where a token stands that has the token `next` after it. -/
inductive StandsAt (text : List Char) (t : Scanned) (next : Option Token) : Text.Position → Prop
  /-- The stream ends where the text ends. -/
  | textEnd : t.kind = .streamEnd → StandsAt text t next (Text.endOf text)
  /-- An entry stands at its dash. -/
  | dash {dash} : t.kind = .blockEntry → DashBefore text t.mark.index dash →
      StandsAt text t next (Text.positionAt text dash)
  /-- A mapping stands where the key after it stands. -/
  | key {k} : t.kind = .blockMappingStart → next = some k → k.kind = .key →
      StandsAt text t next k.position
  /-- All others stand at their marks. -/
  | mark : t.kind ≠ .streamEnd →
      (t.kind = .blockEntry → ∀ dash, ¬DashBefore text t.mark.index dash) →
      (t.kind = .blockMappingStart → ∀ k, next = some k → k.kind ≠ .key) →
      StandsAt text t next ⟨t.mark.line - 1, t.mark.column⟩

theorem position_token (l : Layout) (t : Scanned) : (t.token l).position = t.position l := rfl

theorem position_of_streamEnd (h : t.kind = .streamEnd) : t.position l = l.stop := by
  simp [Scanned.position, h]

theorem position_of_blockEntry (h : t.kind = .blockEntry) :
    t.position l = (l.dashBefore? t.mark.index).getD t.mark.position := by
  simp [Scanned.position, h]

theorem position_of_startsAtMark (h : startsAtMark t.kind = true) :
    t.position l = t.mark.position := by
  obtain ⟨hentry, hend⟩ := kind_ne_of_startsAtMark h
  unfold Scanned.position
  split
  · next heq => exact absurd heq hend
  · next heq => exact absurd heq hentry
  · rfl

theorem StandsAt.eq_position (h : StandsAt text t next p) :
    p = (t.tokenBefore (Layout.ofText text) next).position := by
  cases h with
  | textEnd hkind =>
    rw [tokenBefore_of_no_key (by simp [hkind]), position_token, position_of_streamEnd hkind]
    rfl
  | dash hkind hdash =>
    rw [tokenBefore_of_no_key (by simp [hkind]), position_token, position_of_blockEntry hkind,
      dashBefore?_eq_some_iff.mpr ⟨_, hdash, rfl⟩]
    rfl
  | key hkind hnext hkey =>
    rw [hnext, tokenBefore_of_key hkind hkey]
    rfl
  | mark hend hentry hmapping =>
    rw [tokenBefore_of_no_key hmapping, position_token]
    by_cases hkind : t.kind = .blockEntry
    · rw [position_of_blockEntry hkind, dashBefore?_eq_none_iff.mpr (hentry hkind)]
      rfl
    · rw [position_of_startsAtMark (by simp [startsAtMark, hkind, hend])]
      rfl

theorem exists_standsAt (text : List Char) (t : Scanned) (next : Option Token) :
    ∃ p, StandsAt text t next p := by
  by_cases hend : t.kind = .streamEnd
  · exact ⟨_, .textEnd hend⟩
  · by_cases hdash : t.kind = .blockEntry ∧ ∃ dash, DashBefore text t.mark.index dash
    · obtain ⟨hkind, dash, hdash⟩ := hdash
      exact ⟨_, .dash hkind hdash⟩
    · by_cases hkey : t.kind = .blockMappingStart ∧ ∃ k, next = some k ∧ k.kind = .key
      · obtain ⟨hkind, k, hnext, hkey⟩ := hkey
        exact ⟨_, .key hkind hnext hkey⟩
      · refine ⟨_, .mark hend (fun hkind dash h => hdash ⟨hkind, dash, h⟩) ?_⟩
        exact fun hkind k hnext h => hkey ⟨hkind, k, hnext, h⟩

/-- A token stands at one place only. -/
theorem standsAt_iff :
    StandsAt text t next p ↔ p = (t.tokenBefore (Layout.ofText text) next).position := by
  constructor
  · exact StandsAt.eq_position
  · rintro rfl
    obtain ⟨q, hq⟩ := exists_standsAt text t next
    rwa [← hq.eq_position]

/-! ### The stream -/

/-- The tokens of a stream, each standing where it stands before the next one. -/
inductive Placed (text : List Char) : List Scanned → List Token → Prop
  | nil : Placed text [] []
  | cons {t ts p ps} : p.kind = t.kind → StandsAt text t ps.head? p.position → Placed text ts ps →
      Placed text (t :: ts) (p :: ps)

theorem placed_iff {ts : List Scanned} {ps : List Token} :
    Placed text ts ps ↔ place text ts = ps := by
  constructor
  · intro h
    induction h with
    | nil => rfl
    | @cons t ts p ps hkind hstands _ ih =>
      have ih : placeIn (Layout.ofText text) ts = ps := ih
      show placeIn (Layout.ofText text) (t :: ts) = p :: ps
      rw [placeIn_cons_eq, ih, List.cons.injEq, Token.eq_iff]
      exact ⟨⟨kind_tokenBefore.trans hkind.symm, hstands.eq_position.symm⟩, rfl⟩
  · rintro rfl
    induction ts with
    | nil => exact .nil
    | cons t ts ih =>
      have heq := placeIn_cons_eq (Layout.ofText text) t ts
      show Placed text (t :: ts) (placeIn (Layout.ofText text) (t :: ts))
      rw [heq]
      exact .cons kind_tokenBefore (standsAt_iff.mpr rfl) ih

/-! ### Token by token -/

/-- Appends a token to a stream.  If it is a key, a mapping at the end of the stream moves to it. -/
def Layout.append (l : Layout) (stream : List Token) (t : Scanned) : List Token :=
  match stream.getLast? with
  | none => [t.token l]
  | some last => stream.dropLast ++ [meetKey last (t.token l), t.token l]

theorem append_cons_cons (l : Layout) (a b : Token) (stream : List Token) (t : Scanned) :
    l.append (a :: b :: stream) t = a :: l.append (b :: stream) t := by
  simp only [Layout.append, List.getLast?_cons_cons, List.dropLast_cons_cons]
  split <;> simp_all

/-- What a mapping does not see is whether the mapping after it has moved. -/
theorem meetKey_meetKey (a b c : Token) : meetKey a (meetKey b c) = meetKey a b := by
  by_cases hmeet : b.kind = .blockMappingStart ∧ c.kind = .key
  · simp [meetKey, hmeet]
  · have hstay : meetKey b c = b := by
      simp only [meetKey, Bool.and_eq_true, decide_eq_true_eq, if_neg hmeet]
    rw [hstay]

/-- A token that is appended changes the last one before it, and no other. -/
theorem placeIn_concat_eq (l : Layout) (ts : List Scanned) (t : Scanned) :
    placeIn l (ts ++ [t]) = l.append (placeIn l ts) t := by
  induction ts with
  | nil => rfl
  | cons u us ih =>
    rw [List.cons_append, placeIn_cons_eq, ih, placeIn_cons_eq]
    cases placeIn l us with
    | nil => rfl
    | cons a stream =>
      rw [append_cons_cons, List.cons.injEq]
      refine ⟨?_, rfl⟩
      cases stream with
      | nil => exact meetKey_meetKey (u.token l) a (t.token l)
      | cons b stream => rw [append_cons_cons]; rfl

theorem placeIn_eq_foldl (l : Layout) (ts : List Scanned) :
    placeIn l ts = ts.foldl l.append [] := by
  induction ts using List.reverseRecOn with
  | nil => rfl
  | append_singleton ts t ih => rw [placeIn_concat_eq, ih, List.foldl_concat]

/-- Appends a token, if it is of a kind that streams have. -/
def Layout.appendKnown (l : Layout) (stream : List Token) : Option Scanned → List Token
  | none => stream
  | some t => l.append stream t

theorem foldl_appendKnown (l : Layout) (scanned : List (Option Scanned)) (stream : List Token) :
    scanned.foldl l.appendKnown stream = scanned.reduceOption.foldl l.append stream := by
  induction scanned generalizing stream with
  | nil => rfl
  | cons t? _ ih =>
    cases t? with
    | none => exact ih stream
    | some t => exact ih (l.append stream t)

/-- Every token of a known kind stands where it is to stand, by its mark, the text and the token
after it, and this determines the stream.  So the stream can be built token by token, with no more
than the last one to be moved.  Whatever the marks are, the search for a dash stays inside the text,
the table of lines is in order, and each offset of the text has its entry there. -/
theorem place_eq_iff_stands (text : List Char) (scanned : List (Option Scanned)) :
    (∀ stream, place text scanned.reduceOption = stream ↔
      Placed text scanned.reduceOption stream) ∧
    scanned.foldl (Layout.ofText text).appendKnown [] = place text scanned.reduceOption ∧
    (∀ k, (Layout.ofText text).dashBefore? k =
      (Layout.ofText text).dashWithin? (min k (Layout.ofText text).chars.size)
        (Nat.min_le_right _ _)) ∧
    (Text.lineStarts text).Pairwise (· < ·) ∧
    ∀ o, Text.lookUp (Text.lineStarts text) (min o text.length) =
      some (Text.positionAt text o) := by
  refine ⟨fun stream => placed_iff.symm, ?_, ?_, Text.pairwise_lineStarts text, ?_⟩
  · rw [foldl_appendKnown]
    exact (placeIn_eq_foldl _ _).symm
  · intro k
    exact dashBefore?_eq_dashWithin? _ k _ rfl
  · intro o
    rw [Text.lookUp_lineStarts (Nat.min_le_right _ _), Text.positionAt, Text.positionAt,
      ← List.take_eq_take_min]

end Yaml

end DocMark
